import CalendarRules.Proofs.Files.Tree

/-!
# Making the folders of a path

A tree grows on the way of a path when folders that were missing there are added, and nothing else
happens to it. That is all that making the folders of a path does, whether it gets to its end or
fails before.
-/

namespace CalendarRules.FileTree

variable {t t' t'' : FileTree} {p q : Path} {l : Location}

/-! ## Growth -/

/-- The folder is one that the way of the path goes through. -/
def IsOnWay (t : FileTree) (p : Path) (l : Location) : Prop :=
  ∃ way, way <+: p.parts ∧ t.followAll p.isAbsolute way = .ok (.folder l)

structure Grew (p : Path) (t t' : FileTree) : Prop where
  kept : ∀ l e, t.get? l = some e → t'.get? l = some e
  added : ∀ l e, t.get? l = none → t'.get? l = some e → e = .folder ∧ IsOnWay t' p l

theorem Grew.keepsFolders (h : Grew p t t') : KeepsFolders t t' := fun l => h.kept l .folder

theorem IsOnWay.grew (h : IsOnWay t p l) (hgrew : KeepsFolders t t') : IsOnWay t' p l := by
  obtain ⟨way, hway, hfolder⟩ := h
  exact ⟨way, hway, followAll_keeps hgrew hfolder⟩

namespace Grew

theorem refl (p : Path) (t : FileTree) : Grew p t t := by
  refine ⟨fun _ _ h => h, ?_⟩
  intro l e hnone hsome
  rw [hnone] at hsome
  cases hsome

theorem trans (h : Grew p t t') (h' : Grew p t' t'') : Grew p t t'' := by
  refine ⟨fun l e he => h'.kept l e (h.kept l e he), ?_⟩
  intro l e hnone hsome
  cases hmiddle : t'.get? l with
  | none => exact h'.added l e hmiddle hsome
  | some middle =>
    obtain ⟨rfl, hway⟩ := h.added l middle hnone hmiddle
    have hkept := h'.kept l .folder hmiddle
    rw [hkept] at hsome
    cases hsome
    exact ⟨rfl, hway.grew h'.keepsFolders⟩

theorem mono (h : Grew q t t') (hroot : q.isAbsolute = p.isAbsolute)
    (hparts : q.parts <+: p.parts) : Grew p t t' := by
  refine ⟨h.kept, ?_⟩
  intro l e hnone hsome
  obtain ⟨he, way, hway, hfolder⟩ := h.added l e hnone hsome
  exact ⟨he, way, hway.trans hparts, hroot ▸ hfolder⟩

end Grew

/-! ## One folder -/

theorem resolve_eq_ok {spot : Spot} (h : t.resolve p = .ok spot) :
    checkPath p = .ok () ∧ t.followAll p.isAbsolute p.parts = .ok spot := by
  obtain ⟨_, hcheck, hfollow⟩ := bind_eq_ok h
  exact ⟨hcheck, hfollow⟩

theorem resolve_of_followAll {spot : Spot} (hcheck : checkPath p = .ok ())
    (h : t.followAll p.isAbsolute p.parts = .ok spot) : t.resolve p = .ok spot := by
  unfold resolve
  rw [hcheck]
  exact h

theorem hasFolder_iff : t.hasFolder p = true ↔ ∃ l, t.resolve p = .ok (.folder l) := by
  unfold hasFolder
  constructor
  · intro h
    split at h
    · exact ⟨_, ‹_›⟩
    · cases h
  · rintro ⟨l, h⟩
    rw [h]

theorem ensureFolder_cases (t : FileTree) (p : Path) :
    t.hasFolder p = true ∧ t.ensureFolder p = (t, none) ∨
      (∃ l, t.resolve p = .ok (.free l) ∧ t.ensureFolder p = (t.set l .folder, none)) ∨
      ∃ fault, t.ensureFolder p = (t, some fault) := by
  unfold ensureFolder
  split
  · exact .inl ⟨‹_›, rfl⟩
  · unfold makeFolder
    cases hspot : t.resolve p with
    | error fault => exact .inr (.inr ⟨fault, rfl⟩)
    | ok spot =>
      cases spot with
      | free l => exact .inr (.inl ⟨l, rfl, rfl⟩)
      | file | folder => exact .inr (.inr ⟨.taken, rfl⟩)

theorem ensureFolder_of_hasFolder (h : t.hasFolder p = true) : t.ensureFolder p = (t, none) := by
  unfold ensureFolder
  rw [if_pos h]

theorem followAll_made {isAbsolute : Bool} {parts : List String}
    (h : t.followAll isAbsolute parts = .ok (.free l)) :
    (t.set l .folder).followAll isAbsolute parts = .ok (.folder l) := by
  have hgiven := isGiven_eq_false (get?_of_place h (.free l))
  rw [followAll_set h (.free l), spotAt_eq_folder_iff.mpr ⟨rfl, get?_set_self .folder hgiven⟩]

theorem grew_ensureFolder (t : FileTree) (p : Path) : Grew p t (t.ensureFolder p).1 := by
  rcases ensureFolder_cases t p with ⟨-, h⟩ | ⟨l, hspot, h⟩ | ⟨fault, h⟩ <;> rw [h]
  · exact .refl p t
  · obtain ⟨-, hfollow⟩ := resolve_eq_ok hspot
    have hfree := get?_of_free hfollow
    constructor
    · intro l' e he
      have hne : l' ≠ l := by
        rintro rfl
        rw [hfree] at he
        cases he
      rw [get?_set_of_ne _ hne, he]
    · intro l' e hnone hsome
      by_cases hl : l' = l
      · subst hl
        rw [get?_set_self _ (isGiven_eq_false (get?_of_place hfollow (.free l')))] at hsome
        cases hsome
        exact ⟨rfl, p.parts, List.prefix_rfl, followAll_made hfollow⟩
      · rw [get?_set_of_ne _ hl, hnone] at hsome
        cases hsome
  · exact .refl p t

theorem hasFolder_ensureFolder (h : (t.ensureFolder p).2 = none) :
    (t.ensureFolder p).1.hasFolder p = true := by
  rcases ensureFolder_cases t p with ⟨hfolder, hmade⟩ | ⟨l, hspot, hmade⟩ | ⟨fault, hmade⟩ <;>
    rw [hmade] at h ⊢
  · exact hfolder
  · obtain ⟨hcheck, hfollow⟩ := resolve_eq_ok hspot
    exact hasFolder_iff.mpr ⟨l, resolve_of_followAll hcheck (followAll_made hfollow)⟩
  · cases h

/-! ## The folders on the way -/

theorem makeFoldersTo_cases (t : FileTree) (isAbsolute : Bool) (piece : String)
    (pieces : List String) :
    t.makeFoldersTo isAbsolute (piece :: pieces) =
        t.ensureFolder ⟨isAbsolute, (piece :: pieces).reverse⟩ ∨
      ((t.makeFoldersTo isAbsolute pieces).2 = none ∧
        t.makeFoldersTo isAbsolute (piece :: pieces) =
          (t.makeFoldersTo isAbsolute pieces).1.ensureFolder
            ⟨isAbsolute, (piece :: pieces).reverse⟩) ∨
      ((t.makeFoldersTo isAbsolute pieces).2 ≠ none ∧
        t.makeFoldersTo isAbsolute (piece :: pieces) = t.makeFoldersTo isAbsolute pieces) := by
  rw [makeFoldersTo]
  split
  · cases hrest : t.makeFoldersTo isAbsolute pieces with
    | mk made fault =>
      cases fault with
      | none => exact .inr (.inl ⟨rfl, rfl⟩)
      | some fault => exact .inr (.inr ⟨by simp, rfl⟩)
  · exact .inl rfl

theorem parts_append (isAbsolute : Bool) (pieces more : List String) :
    (Path.mk isAbsolute (pieces ++ more)).parts =
      (Path.mk isAbsolute pieces).parts ++ (Path.mk isAbsolute more).parts :=
  List.filter_append pieces more

theorem grew_makeFoldersTo (t : FileTree) (isAbsolute : Bool) (pieces : List String) :
    Grew ⟨isAbsolute, pieces.reverse⟩ t (t.makeFoldersTo isAbsolute pieces).1 := by
  induction pieces with
  | nil => exact .refl _ t
  | cons piece pieces ih =>
    have hrest : Grew ⟨isAbsolute, (piece :: pieces).reverse⟩ t
        (t.makeFoldersTo isAbsolute pieces).1 := by
      refine ih.mono rfl ?_
      rw [List.reverse_cons, parts_append]
      exact List.prefix_append _ _
    rcases t.makeFoldersTo_cases isAbsolute piece pieces with h | ⟨-, h⟩ | ⟨-, h⟩ <;> rw [h]
    · exact grew_ensureFolder t _
    · exact hrest.trans (grew_ensureFolder _ _)
    · exact hrest

theorem hasFolder_makeFoldersTo {isAbsolute : Bool} {piece : String} {pieces : List String}
    (h : (t.makeFoldersTo isAbsolute (piece :: pieces)).2 = none) :
    (t.makeFoldersTo isAbsolute (piece :: pieces)).1.hasFolder
      ⟨isAbsolute, (piece :: pieces).reverse⟩ = true := by
  rcases t.makeFoldersTo_cases isAbsolute piece pieces with hmade | ⟨-, hmade⟩ | ⟨hfault, hmade⟩
  · rw [hmade] at h ⊢
    exact hasFolder_ensureFolder h
  · rw [hmade] at h ⊢
    exact hasFolder_ensureFolder h
  · rw [hmade] at h
    exact absurd h hfault

theorem makeFoldersTo_of_hasFolder {isAbsolute : Bool} {pieces : List String}
    (h : t.hasFolder ⟨isAbsolute, pieces.reverse⟩ = true) :
    t.makeFoldersTo isAbsolute pieces = (t, none) := by
  cases pieces with
  | nil => rfl
  | cons piece pieces => rw [makeFoldersTo, ensureFolder_of_hasFolder h]

/-! ## The folder that a path names a place in -/

theorem grew_makeParent (t : FileTree) {folder : Path} (h : p.parent? = some folder) :
    Grew folder t (t.makeParent p).1 := by
  unfold makeParent
  rw [h]
  have hgrew := grew_makeFoldersTo t folder.isAbsolute folder.pieces.reverse
  rw [List.reverse_reverse] at hgrew
  exact hgrew

theorem makeParent_of_hasFolder (h : ∀ folder ∈ p.parent?, t.hasFolder folder = true) :
    t.makeParent p = (t, none) := by
  unfold makeParent
  cases hparent : p.parent? with
  | none => rfl
  | some folder =>
    refine makeFoldersTo_of_hasFolder ?_
    rw [List.reverse_reverse]
    exact h folder hparent

theorem makeParent_makeParent (h : (t.makeParent p).2 = none) :
    (t.makeParent p).1.makeParent p = ((t.makeParent p).1, none) := by
  unfold makeParent at h ⊢
  cases hparent : p.parent? with
  | none => rfl
  | some folder =>
    simp only [hparent] at h ⊢
    unfold makeFolders at h ⊢
    cases hpieces : folder.pieces.reverse with
    | nil => rfl
    | cons piece pieces =>
      rw [hpieces] at h
      exact makeFoldersTo_of_hasFolder (hasFolder_makeFoldersTo h)

end CalendarRules.FileTree
