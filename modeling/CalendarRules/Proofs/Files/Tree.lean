import CalendarRules.Files.Tree

/-!
# Ways through a tree

A way that leads to a folder leads there still when folders are added and files are written.
-/

namespace CalendarRules

theorem bind_eq_ok {ε α β : Type} {x : Except ε α} {f : α → Except ε β} {b : β}
    (h : x >>= f = .ok b) : ∃ a, x = .ok a ∧ f a = .ok b := by
  cases x with
  | error e => cases h
  | ok a => exact ⟨a, rfl, h⟩

namespace FileTree

variable {t t' : FileTree} {l l' : Location}

/-! ## Entries -/

theorem get?_set_self (e : FileEntry) (hl : l.isGiven = false) : (t.set l e).get? l = some e := by
  have hfind : (t.entries.filter (·.1 != l)).find? (·.1 == l) = none := by
    rw [List.find?_eq_none]
    intro entry hentry
    simpa using (List.mem_filter.mp hentry).2
  simp [get?, set, hl, hfind]

theorem get?_set_of_ne (e : FileEntry) (hne : l' ≠ l) : (t.set l e).get? l' = t.get? l' := by
  have hfilter : (t.entries.filter (·.1 != l)).find? (·.1 == l') =
      t.entries.find? (·.1 == l') := by
    rw [List.find?_filter]
    congr 1
    funext entry
    by_cases h : entry.1 = l'
    · simp [h, hne]
    · simp [h]
  simp [get?, set, hfilter, Ne.symm hne]

theorem isGiven_eq_false (h : t.get? l ≠ some .folder) : l.isGiven = false := by
  unfold get? at h
  split at h
  · exact absurd rfl h
  · rename_i hgiven
    exact Bool.not_eq_true _ ▸ hgiven

theorem spotAt_eq_folder_iff : t.spotAt l' = .folder l ↔ l' = l ∧ t.get? l = some .folder := by
  unfold spotAt
  constructor
  · intro h
    split at h
    · cases h
    · cases h
      exact ⟨rfl, ‹_›⟩
    · cases h
  · rintro ⟨rfl, h⟩
    rw [h]

/-! ## Steps -/

/-- A part that names a file or a folder, and does not stay or lead upwards. -/
structure IsName (part : String) : Prop where
  ne_dot : part ≠ "."
  ne_up : part ≠ ".."
  size : part.utf8ByteSize ≤ maxNameSize

theorem follow_name {part : String} (h : IsName part) (l : Location) :
    t.follow (.folder l) part = .ok (t.spotAt (l.child part)) := by
  simp [follow, h.ne_dot, h.ne_up, Nat.not_lt.mpr h.size]

theorem follow_cases {spot : Spot} {part : String} (h : t.follow (.folder l) part = .ok spot) :
    IsName part ∧ spot = t.spotAt (l.child part) ∨
      ∃ l', spot = .folder l' ∧ ∀ t', follow t' (.folder l) part = .ok (.folder l') := by
  by_cases hdot : part = "."
  · simp only [follow, hdot, if_true] at h ⊢
    cases h
    exact .inr ⟨l, rfl, fun _ => rfl⟩
  · by_cases hup : part = ".."
    · simp only [follow, hup, if_true] at h ⊢
      cases h
      exact .inr ⟨l.up, rfl, fun _ => rfl⟩
    · by_cases hsize : maxNameSize < part.utf8ByteSize
      · simp [follow, hdot, hup, hsize] at h
      · have hname : IsName part := ⟨hdot, hup, Nat.le_of_not_lt hsize⟩
        rw [follow_name hname] at h
        cases h
        exact .inl ⟨hname, rfl⟩

theorem exists_folder_of_follow {spot spot' : Spot} {part : String}
    (h : t.follow spot part = .ok spot') : ∃ l, spot = .folder l := by
  cases spot with
  | folder l => exact ⟨l, rfl⟩
  | file | free => cases h

theorem exists_folder_of_foldlM {spot : Spot} {parts : List String}
    (h : parts.foldlM t.follow spot = .ok (.folder l)) : ∃ l', spot = .folder l' := by
  cases parts with
  | nil => cases h; exact ⟨l, rfl⟩
  | cons part parts =>
    obtain ⟨_, hfirst, -⟩ := bind_eq_ok h
    exact exists_folder_of_follow hfirst

/-! ## Ways to folders -/

/-- No folder is lost, though files may come and change. -/
def KeepsFolders (t t' : FileTree) : Prop :=
  ∀ l, t.get? l = some .folder → t'.get? l = some .folder

theorem keepsFolders_set (e : FileEntry) (h : t.get? l ≠ some .folder) :
    KeepsFolders t (t.set l e) := by
  intro l' hl'
  have hne : l' ≠ l := by
    rintro rfl
    exact h hl'
  rw [get?_set_of_ne e hne, hl']

theorem follow_keeps (hkeeps : KeepsFolders t t') {spot : Spot} {part : String}
    (h : t.follow spot part = .ok (.folder l)) : t'.follow spot part = .ok (.folder l) := by
  obtain ⟨l₀, rfl⟩ := exists_folder_of_follow h
  rcases follow_cases h with ⟨hname, hspot⟩ | ⟨l', hspot, hfollow⟩
  · obtain ⟨rfl, hl⟩ := spotAt_eq_folder_iff.mp hspot.symm
    rw [follow_name hname, spotAt_eq_folder_iff.mpr ⟨rfl, hkeeps _ hl⟩]
  · cases hspot
    exact hfollow t'

theorem foldlM_follow_keeps (hkeeps : KeepsFolders t t') {spot : Spot} {parts : List String}
    (h : parts.foldlM t.follow spot = .ok (.folder l)) :
    parts.foldlM t'.follow spot = .ok (.folder l) := by
  induction parts generalizing spot with
  | nil => exact h
  | cons part parts ih =>
    rw [List.foldlM_cons] at h ⊢
    obtain ⟨spot', hfirst, hrest⟩ := bind_eq_ok h
    obtain ⟨l', rfl⟩ := exists_folder_of_foldlM hrest
    rw [follow_keeps hkeeps hfirst]
    exact ih hrest

theorem followAll_keeps (hkeeps : KeepsFolders t t') {isAbsolute : Bool} {parts : List String}
    (h : t.followAll isAbsolute parts = .ok (.folder l)) :
    t'.followAll isAbsolute parts = .ok (.folder l) :=
  foldlM_follow_keeps hkeeps h

/-! ## Ways to places -/

/-- Where a file or a folder can be put: a place that is free, or the place of a file. -/
inductive IsPlace : Spot → Location → Prop
  | free (l : Location) : IsPlace (.free l) l
  | file (l : Location) (content : Content) : IsPlace (.file l content) l

theorem isPlace_spotAt (h : IsPlace (t.spotAt l') l) : l' = l ∧ t.get? l ≠ some .folder := by
  unfold spotAt at h
  split at h
  · cases h
    simp_all
  · cases h
  · cases h
    simp_all

theorem followAll_place {isAbsolute : Bool} {parts : List String} {spot : Spot}
    (h : t.followAll isAbsolute parts = .ok spot) (hspot : IsPlace spot l) :
    ∃ way name l₀, parts = way ++ [name] ∧ IsName name ∧
      t.followAll isAbsolute way = .ok (.folder l₀) ∧ l = l₀.child name ∧ spot = t.spotAt l := by
  rcases List.eq_nil_or_concat parts with rfl | ⟨way, name, rfl⟩
  · cases h
    cases hspot
  · rw [List.concat_eq_append] at h
    unfold followAll at h
    rw [List.foldlM_append] at h
    obtain ⟨before, hway, hlast⟩ := bind_eq_ok h
    simp only [List.foldlM_cons, List.foldlM_nil, bind_pure] at hlast
    obtain ⟨l₀, rfl⟩ := exists_folder_of_follow hlast
    rcases follow_cases hlast with ⟨hname, rfl⟩ | ⟨l', rfl, -⟩
    · obtain ⟨rfl, -⟩ := isPlace_spotAt hspot
      exact ⟨way, name, l₀, by simp, hname, hway, rfl, rfl⟩
    · cases hspot

theorem get?_of_place {isAbsolute : Bool} {parts : List String} {spot : Spot}
    (h : t.followAll isAbsolute parts = .ok spot) (hspot : IsPlace spot l) :
    t.get? l ≠ some .folder := by
  obtain ⟨_, _, _, -, -, -, -, rfl⟩ := followAll_place h hspot
  exact (isPlace_spotAt hspot).2

theorem get?_of_free {isAbsolute : Bool} {parts : List String}
    (h : t.followAll isAbsolute parts = .ok (.free l)) : t.get? l = none := by
  obtain ⟨_, _, _, -, -, -, -, hspot⟩ := followAll_place h (.free l)
  unfold spotAt at hspot
  split at hspot
  · cases hspot
  · cases hspot
  · assumption

theorem followAll_set {isAbsolute : Bool} {parts : List String} {spot : Spot}
    (h : t.followAll isAbsolute parts = .ok spot) (hspot : IsPlace spot l) (e : FileEntry) :
    (t.set l e).followAll isAbsolute parts = .ok ((t.set l e).spotAt l) := by
  obtain ⟨way, name, l₀, rfl, hname, hway, rfl, -⟩ := followAll_place h hspot
  have hkeeps := keepsFolders_set e (get?_of_place h hspot)
  have hway' := followAll_keeps hkeeps hway
  unfold followAll at hway' ⊢
  rw [List.foldlM_append, hway']
  simp only [List.foldlM_cons, List.foldlM_nil, bind_pure]
  exact follow_name hname l₀

end FileTree

end CalendarRules
