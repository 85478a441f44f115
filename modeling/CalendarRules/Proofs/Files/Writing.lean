import CalendarRules.Proofs.Files.Folders
import Mathlib.Data.List.TakeWhile
import Mathlib.Tactic.SplitIfs

/-!
# Writing a file and reading it again

Where a file is read it can be written, and its folder need not be made.
-/

namespace CalendarRules.FileTree

variable {t t' : FileTree} {p : Path} {l : Location} {text : String}

/-- The path may name a file, and its way leads to this spot. -/
structure Leads (t : FileTree) (p : Path) (spot : Spot) : Prop where
  isEmpty : p.isEmpty = false
  check : checkPath p = .ok ()
  endsInSlash : p.endsInSlash = false
  follow : t.followAll p.isAbsolute p.parts = .ok spot

theorem writeText_of_leads {spot : Spot} (h : t.Leads p spot) (hspot : IsPlace spot l)
    (text : String) : t.writeText p text = .ok (t.set l (.file (.text text))) := by
  unfold writeText
  simp only [h.isEmpty, h.endsInSlash, h.check, h.follow, Bool.false_eq_true, if_false]
  cases hspot <;> rfl

theorem not_isPlace_of_dot {isAbsolute : Bool} {way : List String} {spot : Spot}
    (h : t.followAll isAbsolute (way ++ ["."]) = .ok spot) : ¬IsPlace spot l := by
  intro hspot
  obtain ⟨way', name, _, hway, hname, -⟩ := followAll_place h hspot
  obtain ⟨-, hdot⟩ := List.append_inj' hway rfl
  cases hdot
  exact hname.ne_dot rfl

theorem leads_of_writeText (h : t.writeText p text = .ok t') :
    ∃ spot l, t.Leads p spot ∧ IsPlace spot l ∧ t' = t.set l (.file (.text text)) := by
  unfold writeText at h
  split at h
  · cases h
  · rename_i hempty
    obtain ⟨_, hcheck, h⟩ := bind_eq_ok h
    obtain ⟨spot, hfollow, h⟩ := bind_eq_ok h
    have hplace : ∃ l, IsPlace spot l ∧ t' = t.set l (.file (.text text)) := by
      cases spot with
      | folder => cases h
      | file l content => cases h; exact ⟨l, .file l content, rfl⟩
      | free l => cases h; exact ⟨l, .free l, rfl⟩
    obtain ⟨l, hspot, ht'⟩ := hplace
    split_ifs at hfollow with hslash
    · exact absurd hspot (not_isPlace_of_dot hfollow)
    · exact ⟨spot, l, ⟨by simpa using hempty, hcheck, by simpa using hslash, hfollow⟩, hspot, ht'⟩

theorem writeText_any (h : t.writeText p text = .ok t') (other : String) :
    ∃ t'', t.writeText p other = .ok t'' := by
  obtain ⟨spot, l, hleads, hspot, -⟩ := leads_of_writeText h
  exact ⟨_, writeText_of_leads hleads hspot other⟩

/-! ## Reading -/

theorem read_eq_ok_iff {content : Content} :
    t.read p = .ok content ↔ ∃ l, t.Leads p (.file l content) := by
  unfold read
  constructor
  · intro h
    split at h
    · cases h
    · rename_i hempty
      obtain ⟨spot, hspot, h⟩ := bind_eq_ok h
      obtain ⟨hcheck, hfollow⟩ := resolve_eq_ok hspot
      cases spot with
      | folder | free => cases h
      | file l found =>
        simp only at h
        split_ifs at h with hslash
        cases h
        exact ⟨l, by simpa using hempty, hcheck, by simpa using hslash, hfollow⟩
  · rintro ⟨l, h⟩
    rw [h.isEmpty, resolve_of_followAll h.check h.follow, h.endsInSlash]
    rfl

theorem has_of_read {content : Content} (h : t.read p = .ok content) : t.has p = true := by
  unfold has
  rw [h]

theorem read_of_not_has (h : t.has p = false) : (t.read p).toOption = none := by
  cases hread : t.read p with
  | error fault => rfl
  | ok content =>
    rw [has_of_read hread] at h
    cases h

theorem readText_eq_ok_iff : t.readText p = .ok text ↔ t.read p = .ok (.text text) := by
  unfold readText
  constructor
  · intro h
    obtain ⟨content, hread, htext⟩ := bind_eq_ok h
    cases content with
    | text found => cases htext; exact hread
    | bytes data => cases htext
  · intro h
    rw [h]
    rfl

theorem read_of_writeText (h : t.writeText p text = .ok t') : t'.read p = .ok (.text text) := by
  obtain ⟨spot, l, hleads, hspot, rfl⟩ := leads_of_writeText h
  refine read_eq_ok_iff.mpr ⟨l, hleads.isEmpty, hleads.check, hleads.endsInSlash, ?_⟩
  have hgiven := isGiven_eq_false (get?_of_place hleads.follow hspot)
  rw [followAll_set hleads.follow hspot, spotAt, get?_set_self _ hgiven]

theorem writeText_of_read {content : Content} (h : t.read p = .ok content) (text : String) :
    ∃ t', t.writeText p text = .ok t' := by
  obtain ⟨l, hleads⟩ := read_eq_ok_iff.mp h
  exact ⟨_, writeText_of_leads hleads (.file l content) text⟩

/-! ## The folder of a file that is there -/

theorem exists_properPieces_append (isAbsolute : Bool) (pieces : List String) :
    ∃ dropped, pieces = Path.properPieces isAbsolute pieces ++ dropped ∧
      ∀ piece ∈ dropped, piece = "" ∨ piece = "." := by
  cases pieces with
  | nil => exact ⟨[], rfl, by simp⟩
  | cons first rest =>
    let idle : String → Bool := fun piece => piece.isEmpty || piece = "."
    have hidle : ∀ piece, idle piece = true → piece = "" ∨ piece = "." := by
      intro piece h
      simpa [idle] using h
    have hrest : rest = (rest.reverse.dropWhile idle).reverse ++
        (rest.reverse.takeWhile idle).reverse := by
      rw [← List.reverse_append, List.takeWhile_append_dropWhile, List.reverse_reverse]
    have htaken : ∀ piece ∈ (rest.reverse.takeWhile idle).reverse, piece = "" ∨ piece = "." := by
      intro piece h
      exact hidle piece (List.mem_takeWhile_imp (List.mem_reverse.mp h))
    unfold Path.properPieces
    simp only
    split
    · rename_i h
      obtain ⟨hkept, hfirst⟩ := Bool.and_eq_true_iff.mp h
      refine ⟨first :: rest, rfl, List.forall_mem_cons.mpr ⟨?_, ?_⟩⟩
      · rcases Bool.or_eq_true_iff.mp hfirst with hempty | hdot
        · exact .inl (by simpa using hempty)
        · exact .inr (by simpa using (Bool.and_eq_true_iff.mp hdot).1)
      · rw [List.isEmpty_iff.mp hkept, List.nil_append] at hrest
        rw [hrest]
        exact htaken
    · exact ⟨(rest.reverse.takeWhile idle).reverse, congrArg (first :: ·) hrest, htaken⟩

theorem properPieces_concat (isAbsolute : Bool) (init : List String) {name : String}
    (hempty : name ≠ "") (hdot : name ≠ ".") :
    Path.properPieces isAbsolute (init ++ [name]) = init ++ [name] := by
  cases init with
  | nil => simp [Path.properPieces, hempty, hdot]
  | cons first rest => simp [Path.properPieces, hempty, hdot]

theorem parent?_concat (isAbsolute : Bool) (init : List String) {name : String}
    (hempty : name ≠ "") (hdot : name ≠ ".") :
    (Path.mk isAbsolute (init ++ [name])).parent? =
      some ⟨isAbsolute, Path.properPieces isAbsolute init⟩ := by
  unfold Path.parent?
  rw [properPieces_concat isAbsolute init hempty hdot]
  cases h : init ++ [name] with
  | nil => simp at h
  | cons first rest =>
    simp only
    rw [← h, List.dropLast_concat]

theorem foldlM_dots {dots : List String} (hdots : ∀ part ∈ dots, part = ".") (l : Location) :
    dots.foldlM t.follow (.folder l) = .ok (.folder l) := by
  induction dots with
  | nil => rfl
  | cons part dots ih =>
    obtain ⟨rfl, hmore⟩ := List.forall_mem_cons.mp hdots
    exact ih hmore

theorem followAll_of_dots {isAbsolute : Bool} {parts dots : List String}
    (hdots : ∀ part ∈ dots, part = ".")
    (h : t.followAll isAbsolute (parts ++ dots) = .ok (.folder l)) :
    t.followAll isAbsolute parts = .ok (.folder l) := by
  unfold followAll at h ⊢
  rw [List.foldlM_append] at h
  obtain ⟨spot, hparts, hrest⟩ := bind_eq_ok h
  obtain ⟨l', rfl⟩ := exists_folder_of_foldlM hrest
  rw [foldlM_dots hdots] at hrest
  cases hrest
  exact hparts

theorem foldl_size_le {m n : Nat} (h : m ≤ n) (pieces more : List String) :
    pieces.foldl (fun n piece => n + piece.utf8ByteSize) m ≤
      (pieces ++ more).foldl (fun n piece => n + piece.utf8ByteSize) n := by
  induction pieces generalizing m n with
  | nil =>
    induction more generalizing n with
    | nil => exact h
    | cons piece more ih => exact ih (Nat.le_add_right_of_le h)
  | cons piece pieces ih => exact ih (Nat.add_le_add_right h _)

theorem size_le_append (isAbsolute : Bool) (pieces more : List String) :
    (Path.mk isAbsolute pieces).size ≤ (Path.mk isAbsolute (pieces ++ more)).size := by
  unfold Path.size
  refine foldl_size_le ?_ pieces more
  simp only [List.length_append]
  omega

theorem checkPath_eq_ok_iff :
    checkPath p = .ok () ↔ p.isNameable = true ∧ p.size ≤ maxPathSize := by
  unfold checkPath
  split_ifs with hname hsize
  · simp_all
  · simp only [false_iff, not_and]
    omega
  · simp only [true_iff]
    exact ⟨by simpa using hname, by omega⟩

theorem checkPath_of_prefix {isAbsolute : Bool} {pieces more : List String}
    (h : checkPath ⟨isAbsolute, pieces ++ more⟩ = .ok ()) :
    checkPath ⟨isAbsolute, pieces⟩ = .ok () := by
  obtain ⟨hname, hsize⟩ := checkPath_eq_ok_iff.mp h
  refine checkPath_eq_ok_iff.mpr ⟨?_, ?_⟩
  · unfold Path.isNameable at hname ⊢
    rw [List.all_append, Bool.and_eq_true] at hname
    exact hname.1
  · exact Nat.le_trans (size_le_append isAbsolute pieces more) hsize

theorem pieces_eq_concat {isAbsolute : Bool} {pieces way : List String} {name : String}
    (hslash : (Path.mk isAbsolute pieces).endsInSlash = false)
    (hparts : (Path.mk isAbsolute pieces).parts = way ++ [name]) :
    ∃ init, pieces = init ++ [name] ∧ (Path.mk isAbsolute init).parts = way ∧ name ≠ "" := by
  rcases List.eq_nil_or_concat pieces with rfl | ⟨init, last, hpieces⟩
  · simp [Path.parts] at hparts
  · rw [List.concat_eq_append] at hpieces
    subst hpieces
    have hlast : last ≠ "" := by
      rintro rfl
      simp [Path.endsInSlash, hparts] at hslash
    have hown : (Path.mk isAbsolute [last]).parts = [last] := by
      simp [Path.parts, hlast]
    rw [parts_append, hown] at hparts
    obtain ⟨hway, hname⟩ := List.append_inj' hparts rfl
    cases hname
    exact ⟨init, rfl, hway, hlast⟩

theorem makeParent_of_leads {content : Content} (h : t.Leads p (.file l content)) :
    t.makeParent p = (t, none) := by
  obtain ⟨way, name, l₀, hparts, hname, hway, -, -⟩ := followAll_place h.follow (.file l content)
  obtain ⟨isAbsolute, pieces⟩ := p
  obtain ⟨init, rfl, hinit, hempty⟩ := pieces_eq_concat h.endsInSlash hparts
  refine makeParent_of_hasFolder ?_
  intro folder hfolder
  rw [parent?_concat isAbsolute init hempty hname.ne_dot] at hfolder
  cases hfolder
  obtain ⟨dropped, hdropped, hidle⟩ := exists_properPieces_append isAbsolute init
  refine hasFolder_iff.mpr ⟨l₀, resolve_of_followAll ?_ ?_⟩
  · have hcheck := h.check
    rw [hdropped, List.append_assoc] at hcheck
    exact checkPath_of_prefix hcheck
  · have hdots : ∀ part ∈ (Path.mk isAbsolute dropped).parts, part = "." := by
      intro part hpart
      obtain ⟨hmem, hne⟩ := List.mem_filter.mp hpart
      rcases hidle part hmem with rfl | hdot
      · cases hne
      · exact hdot
    refine followAll_of_dots hdots ?_
    rw [← parts_append, ← hdropped, hinit]
    exact hway

theorem makeParent_of_read {content : Content} (h : t.read p = .ok content) :
    t.makeParent p = (t, none) := by
  obtain ⟨l, hleads⟩ := read_eq_ok_iff.mp h
  exact makeParent_of_leads hleads

end CalendarRules.FileTree
