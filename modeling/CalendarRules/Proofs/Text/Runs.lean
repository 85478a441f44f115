import Mathlib.Data.List.TakeWhile

/-! # Runs of characters -/

namespace CalendarRules.Text

theorem takeWhile_run (p : Char → Bool) (run rest : List Char) (hrun : ∀ c ∈ run, p c = true)
    (hend : ∀ c ∈ rest.head?, p c = false) :
    (run ++ rest).takeWhile p = run ∧ (run ++ rest).dropWhile p = rest := by
  rw [List.takeWhile_append_of_pos hrun, List.dropWhile_append_of_pos hrun]
  cases rest with
  | nil => simp
  | cons c cs =>
    have hc : p c = false := hend c rfl
    simp [hc]

theorem append_cons_inj {c : Char} {cs ds rest rest' : List Char} (hcs : c ∉ cs) (hds : c ∉ ds)
    (h : cs ++ c :: rest = ds ++ c :: rest') : cs = ds ∧ rest = rest' := by
  have hrun {cs : List Char} (hcs : c ∉ cs) (rest : List Char) :=
    takeWhile_run (· != c) cs (c :: rest) (by simpa using fun d hd => ne_of_mem_of_not_mem hd hcs)
      (by simp)
  obtain ⟨hfirst, hlast⟩ := hrun hcs rest
  rw [h, (hrun hds rest').1] at hfirst
  rw [h, (hrun hds rest').2] at hlast
  exact ⟨hfirst.symm, (List.cons.inj hlast).2.symm⟩

theorem takeWhile_append_drop (p : Char → Bool) (cs : List Char) :
    cs.takeWhile p ++ cs.drop (cs.takeWhile p).length = cs := by
  have hwhole := List.take_append_drop (cs.takeWhile p).length cs
  rwa [← List.prefix_iff_eq_take.mp (List.takeWhile_prefix _)] at hwhole

theorem of_mem_head?_dropWhile {p : Char → Bool} {cs : List Char} {c : Char}
    (hc : c ∈ (cs.dropWhile p).head?) : p c = false := by
  have h := List.head?_dropWhile_not p cs
  rw [Option.mem_def.mp hc] at h
  exact h

end CalendarRules.Text
