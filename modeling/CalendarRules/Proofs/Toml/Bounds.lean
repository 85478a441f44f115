import CalendarRules.Toml.Read
import Mathlib.Tactic.SplitIfs

/-!
# Every whole number that is read fits

The reader refuses a whole number beyond 64 bits with a sign, and nothing that puts a document
together makes a number of its own.
-/

namespace CalendarRules.Toml

/-- Each whole number in the value has 64 bits with a sign. -/
inductive Value.Fits : Value → Prop
  | text (s : String) : Fits (.text s)
  | whole {n : Int} (h : fitsWhole n = true) : Fits (.whole n)
  | real (literal : String) : Fits (.real literal)
  | bool (b : Bool) : Fits (.bool b)
  | time (literal : String) : Fits (.time literal)
  | list {items : List Value} (h : ∀ v ∈ items, Fits v) : Fits (.list items)
  | table {members : List (String × Value)} (h : ∀ m ∈ members, Fits m.2) : Fits (.table members)

inductive Item.Fits : Item → Prop
  | value {v : Value} (h : v.Fits) : Fits (.value v)
  | table {made : Making} {ms : List (String × Item)} (h : ∀ m ∈ ms, Fits m.2) :
    Fits (.table made ms)
  | elements {tables : List (List (String × Item))} (h : ∀ ms ∈ tables, ∀ m ∈ ms, Fits m.2) :
    Fits (.elements tables)

/-! ## Numbers -/

theorem fitsWhole_of_wholeOf? {negative : Bool} {n : Nat} {m : Int}
    (h : wholeOf? negative n = some m) : fitsWhole m = true := by
  unfold wholeOf? at h
  simp only at h
  split_ifs at h with hneg hfits hfits <;> exact Option.some.inj h ▸ hfits

theorem fitsWhole_of_readInBase? {base : Nat} {cs rest : List Char} {n : Int}
    (h : readInBase? base cs = some (n, rest)) : fitsWhole n = true := by
  simp only [readInBase?, Option.bind_eq_bind, Option.bind_eq_some_iff, Option.some.injEq,
    Prod.mk.injEq] at h
  obtain ⟨_, -, m, hm, rfl, -⟩ := h
  exact fitsWhole_of_wholeOf? hm

theorem fitsWhole_of_readWhole? {cs rest : List Char} {n : Int}
    (h : readWhole? cs = some (n, rest)) : fitsWhole n = true := by
  unfold readWhole? at h
  split at h
  · exact fitsWhole_of_readInBase? h
  · exact fitsWhole_of_readInBase? h
  · exact fitsWhole_of_readInBase? h
  · simp only [Option.bind_eq_bind, Option.bind_eq_some_iff, Option.some.injEq, Prod.mk.injEq] at h
    obtain ⟨_, -, m, hm, rfl, -⟩ := h
    exact fitsWhole_of_wholeOf? hm

/-! ## Values -/

/-- What the reader gives fits. -/
def FittingReader (one : ValueReader) : Prop := ∀ cs v rest, one cs = some (v, rest) → v.Fits

theorem fits_readScalar : FittingReader readScalar? := by
  intro cs v rest h
  unfold readScalar? at h
  split at h
  · cases h; exact .bool true
  · cases h; exact .bool false
  · split at h
    · cases h; exact .text _
    · unfold readNumber? at h
      split at h
      · cases h; exact .time _
      · split at h
        · cases h; exact .real _
        · obtain ⟨⟨n, rest⟩, hn, hv⟩ := Option.map_eq_some_iff.mp h
          cases hv
          exact .whole (fitsWhole_of_readWhole? hn)

section Readers

variable {one : ValueReader} (hone : FittingReader one)

include hone

theorem fits_readItems (fuel : Nat) (cs rest : List Char) (vs : List Value)
    (h : readItems? one fuel cs = some (vs, rest)) : ∀ v ∈ vs, v.Fits := by
  induction fuel generalizing cs rest vs with
  | zero => cases h
  | succ fuel ih =>
    simp only [readItems?, Option.bind_eq_bind, Option.bind_eq_some_iff] at h
    obtain ⟨cs, -, h⟩ := h
    split at h
    · cases h
      simp
    · obtain ⟨⟨v, cs⟩, hv, h⟩ := Option.bind_eq_some_iff.mp h
      obtain ⟨cs, -, h⟩ := Option.bind_eq_some_iff.mp h
      split at h
      · obtain ⟨⟨vs, cs⟩, hvs, h⟩ := Option.bind_eq_some_iff.mp h
        cases h
        exact List.forall_mem_cons.mpr ⟨hone _ _ _ hv, ih _ _ _ hvs⟩
      · cases h
        exact List.forall_mem_singleton.mpr (hone _ _ _ hv)
      · cases h

theorem fits_readEntry (cs rest : List Char) (e : Entry)
    (h : readEntry? one cs = some (e, rest)) : e.value.Fits := by
  simp only [ readEntry?, Option.bind_eq_bind, Option.bind_eq_some_iff] at h
  obtain ⟨_, -, h⟩ := h
  split at h
  · obtain ⟨⟨v, cs⟩, hv, h⟩ := Option.bind_eq_some_iff.mp h
    cases h
    exact hone _ _ _ hv
  · cases h

theorem fits_readEntries (fuel : Nat) (cs rest : List Char) (es : List Entry)
    (h : readEntries? one fuel cs = some (es, rest)) : ∀ e ∈ es, e.value.Fits := by
  induction fuel generalizing cs rest es with
  | zero => cases h
  | succ fuel ih =>
    simp only [readEntries?, Option.bind_eq_bind, Option.bind_eq_some_iff] at h
    obtain ⟨⟨e, cs⟩, he, h⟩ := h
    split at h
    · obtain ⟨⟨es, cs⟩, hes, h⟩ := Option.bind_eq_some_iff.mp h
      cases h
      exact List.forall_mem_cons.mpr ⟨fits_readEntry hone _ _ _ he, ih _ _ _ hes⟩
    · cases h
      exact List.forall_mem_singleton.mpr (fits_readEntry hone _ _ _ he)
    · cases h

end Readers

/-! ## Tables -/

namespace Members

def Fit (ms : Members) : Prop := ∀ m ∈ ms, m.2.Fits

namespace Fit

theorem nil : Fit [] := by simp [Fit]

theorem get? {ms : Members} (hms : ms.Fit) {name : String} {item : Item}
    (h : ms.get? name = some item) : item.Fits := by
  obtain ⟨m, hm, rfl⟩ := Option.map_eq_some_iff.mp h
  exact hms m (List.mem_of_find?_eq_some hm)

theorem set {ms : Members} (hms : ms.Fit) (name : String) {item : Item} (hitem : item.Fits) :
    (ms.set name item).Fit := by
  induction ms with
  | nil => simpa [Members.set, Fit] using hitem
  | cons m ms ih =>
    obtain ⟨hm, hms⟩ := List.forall_mem_cons.mp hms
    unfold Members.set
    split
    · exact List.forall_mem_cons.mpr ⟨hitem, hms⟩
    · exact List.forall_mem_cons.mpr ⟨hm, ih hms⟩

theorem of_sub {ms ms' : Members} (hms : ms.Fit) {p : String} {changed : Option Members}
    {place : Members → Item} (hchanged : ∀ sub ∈ changed, sub.Fit)
    (hplace : ∀ sub, sub.Fit → (place sub).Fits)
    (h : (do some (ms.set p (place (← changed)))) = some ms') : ms'.Fit := by
  obtain ⟨sub, hsub, h⟩ := Option.bind_eq_some_iff.mp h
  cases h
  exact hms.set p (hplace sub (hchanged sub hsub))

theorem insert? {name : String} {v : Value} (hv : v.Fits) {path : List String} {ms ms' : Members}
    (hms : ms.Fit) (h : Members.insert? name v path ms = some ms') : ms'.Fit := by
  induction path generalizing ms ms' with
  | nil =>
    unfold Members.insert? at h
    split at h
    · cases h
      exact hms.set name (.value hv)
    · cases h
  | cons p path ih =>
    unfold Members.insert? at h
    split at h
    · exact hms.of_sub (fun _ => ih .nil) (fun _ => .table) h
    · rename_i hget
      cases hms.get? hget with
      | table hsub => exact hms.of_sub (fun _ => ih hsub) (fun _ => .table) h
    · rename_i hget
      cases hms.get? hget with
      | table hsub =>
        split at h
        · cases h
        · exact hms.of_sub (fun _ => ih hsub) (fun _ => .table) h
    · rename_i hget
      cases hms.get? hget with
      | elements htables =>
        obtain ⟨hsub, hearlier⟩ := List.forall_mem_cons.mp htables
        split at h
        · cases h
        · exact hms.of_sub (fun _ => ih hsub)
            (fun _ hsub => .elements (List.forall_mem_cons.mpr ⟨hsub, hearlier⟩)) h
    · cases h

theorem insertEntries? {es : List Entry} (hes : ∀ e ∈ es, e.value.Fits) {ms ms' : Members}
    (hms : ms.Fit) (h : Members.insertEntries? ms es = some ms') : ms'.Fit := by
  induction es generalizing ms with
  | nil => cases h; exact hms
  | cons e es ih =>
    obtain ⟨he, hes⟩ := List.forall_mem_cons.mp hes
    unfold Members.insertEntries? at h
    rw [List.foldlM_cons] at h
    obtain ⟨ms₁, hfirst, h⟩ := Option.bind_eq_some_iff.mp h
    exact ih hes (hms.insert? he hfirst) h

theorem changeAt? {change : Members → Option Members}
    (hchange : ∀ ms ms' : Members, ms.Fit → change ms = some ms' → ms'.Fit) {path : List String}
    {ms ms' : Members} (hms : ms.Fit) (h : Members.changeAt? change path ms = some ms') :
    ms'.Fit := by
  induction path generalizing ms ms' with
  | nil => exact hchange ms ms' hms h
  | cons p path ih =>
    unfold Members.changeAt? at h
    split at h
    · exact hms.of_sub (fun _ => ih .nil) (fun _ => .table) h
    · rename_i hget
      cases hms.get? hget with
      | table hsub => exact hms.of_sub (fun _ => ih hsub) (fun _ => .table) h
    · rename_i hget
      cases hms.get? hget with
      | elements htables =>
        obtain ⟨hsub, hearlier⟩ := List.forall_mem_cons.mp htables
        exact hms.of_sub (fun _ => ih hsub)
          (fun _ hsub => .elements (List.forall_mem_cons.mpr ⟨hsub, hearlier⟩)) h
    · cases h

theorem fillTable? {name : String} {es : List Entry} (hes : ∀ e ∈ es, e.value.Fits)
    {ms ms' : Members} (hms : ms.Fit) (h : Members.fillTable? name es ms = some ms') :
    ms'.Fit := by
  unfold Members.fillTable? at h
  split at h
  · exact hms.of_sub (fun _ => insertEntries? hes .nil) (fun _ => .table) h
  · rename_i hget
    cases hms.get? hget with
    | table hsub => exact hms.of_sub (fun _ => insertEntries? hes hsub) (fun _ => .table) h
  · cases h

theorem addElement? {name : String} {es : List Entry} (hes : ∀ e ∈ es, e.value.Fits)
    {ms ms' : Members} (hms : ms.Fit) (h : Members.addElement? name es ms = some ms') :
    ms'.Fit := by
  unfold Members.addElement? at h
  split at h
  · exact hms.of_sub (fun _ => insertEntries? hes .nil)
      (fun _ hsub => .elements (List.forall_mem_singleton.mpr hsub)) h
  · rename_i hget
    cases hms.get? hget with
    | elements htables =>
      exact hms.of_sub (fun _ => insertEntries? hes .nil)
        (fun _ hsub => .elements (List.forall_mem_cons.mpr ⟨hsub, htables⟩)) h
  · cases h

theorem insertSection? {s : Section} (hs : ∀ e ∈ s.entries, e.value.Fits) {ms ms' : Members}
    (hms : ms.Fit) (h : Members.insertSection? ms s = some ms') : ms'.Fit := by
  refine changeAt? ?_ hms h
  intro ms ms' hms h
  split at h
  · exact addElement? hs hms h
  · exact fillTable? hs hms h

end Fit

end Members

/-! ## From items to values -/

mutual

theorem Item.Fits.toValue : {item : Item} → item.Fits → item.toValue.Fits
  | .value _, .value h => h
  | .table _ _, .table h => .table (fits_memberValues h)
  | .elements _, .elements h => .list (fits_elementValues (by simp) h)

theorem fits_memberValues : {ms : Members} → (∀ m ∈ ms, m.2.Fits) → ∀ m ∈ memberValues ms, m.2.Fits
  | [], _ => by simp [memberValues]
  | (_, _) :: _, h => by
    obtain ⟨hm, hms⟩ := List.forall_mem_cons.mp h
    exact List.forall_mem_cons.mpr ⟨hm.toValue, fits_memberValues hms⟩

theorem fits_elementValues {later : List Value} (hlater : ∀ v ∈ later, v.Fits) :
    {tables : List Members} → (∀ ms ∈ tables, ∀ m ∈ ms, m.2.Fits) →
      ∀ v ∈ elementValues later tables, v.Fits
  | [], _ => hlater
  | _ :: _, h => by
    obtain ⟨hms, htables⟩ := List.forall_mem_cons.mp h
    exact fits_elementValues
      (List.forall_mem_cons.mpr ⟨.table (fits_memberValues hms), hlater⟩) htables

end

/-! ## Documents -/

theorem fits_tableOf {es : List Entry} (hes : ∀ e ∈ es, e.value.Fits) {v : Value}
    (h : tableOf? es = some v) : v.Fits := by
  obtain ⟨ms, hms, rfl⟩ := Option.map_eq_some_iff.mp h
  exact .table (fits_memberValues (Members.Fit.insertEntries? hes .nil hms))

theorem fits_readInline {one : ValueReader} (hone : FittingReader one) :
    FittingReader (readInline? one) := by
  intro cs v rest h
  unfold readInline? at h
  split at h
  · cases h
    exact .table (by simp)
  · obtain ⟨⟨es, rest⟩, hes, h⟩ := Option.bind_eq_some_iff.mp h
    obtain ⟨v, hv, h⟩ := Option.bind_eq_some_iff.mp h
    cases h
    exact fits_tableOf (fits_readEntries hone _ _ _ _ hes) hv

theorem fits_readValue (room : Nat) : FittingReader (readValue? room) := by
  induction room with
  | zero => exact fits_readScalar
  | succ room ih =>
    intro cs v rest h
    unfold readValue? at h
    split at h
    · cases ‹room + 1 = 0›
    · cases ‹room + 1 = _›
      obtain ⟨⟨vs, rest⟩, hvs, h⟩ := Option.bind_eq_some_iff.mp h
      cases h
      exact .list (fits_readItems ih _ _ _ _ hvs)
    · cases ‹room + 1 = _›
      exact fits_readInline ih _ _ _ h
    · exact fits_readScalar _ _ _ h

def Line.Fits : Line → Prop
  | .entry e => e.value.Fits
  | _ => True

theorem fits_readLine {cs rest : List Char} {l : Line} (h : readLine? cs = some (l, rest)) :
    l.Fits := by
  unfold readLine? at h
  split at h
  · obtain ⟨_, -, h⟩ := Option.bind_eq_some_iff.mp h
    split at h
    · obtain ⟨_, -, h⟩ := Option.bind_eq_some_iff.mp h
      cases h
      trivial
    · cases h
  · obtain ⟨_, -, h⟩ := Option.bind_eq_some_iff.mp h
    split at h
    · obtain ⟨_, -, h⟩ := Option.bind_eq_some_iff.mp h
      cases h
      trivial
    · cases h
  · split at h
    · cases h
      trivial
    · obtain ⟨⟨e, cs⟩, he, h⟩ := Option.bind_eq_some_iff.mp h
      obtain ⟨_, -, h⟩ := Option.bind_eq_some_iff.mp h
      cases h
      exact fits_readEntry (fits_readValue maxDepth) _ _ _ he

theorem fits_readLines {fuel : Nat} {cs : List Char} {ls : List Line}
    (h : readLines? fuel cs = some ls) : ∀ l ∈ ls, l.Fits := by
  induction fuel generalizing cs ls with
  | zero => cases h
  | succ fuel ih =>
    unfold readLines? at h
    split at h
    · cases h
      simp
    · obtain ⟨⟨l, rest⟩, hl, h⟩ := Option.bind_eq_some_iff.mp h
      obtain ⟨ls, hls, h⟩ := Option.bind_eq_some_iff.mp h
      cases h
      exact List.forall_mem_cons.mpr ⟨fits_readLine hl, ih hls⟩

structure Document.Fits (d : Document) : Prop where
  entries : ∀ e ∈ d.entries, e.value.Fits
  sections : ∀ s ∈ d.sections, ∀ e ∈ s.entries, e.value.Fits

namespace Document

theorem fits_ofLines {ls : List Line} (h : ∀ l ∈ ls, l.Fits) : (ofLines ls).Fits := by
  induction ls with
  | nil => exact ⟨by simp [ofLines], by simp [ofLines]⟩
  | cons l ls ih =>
    obtain ⟨hl, hls⟩ := List.forall_mem_cons.mp h
    obtain ⟨hentries, hsections⟩ := ih hls
    cases l with
    | blank => exact ⟨hentries, hsections⟩
    | entry e => exact ⟨List.forall_mem_cons.mpr ⟨hl, hentries⟩, hsections⟩
    | header h => exact ⟨by simp [ofLines], List.forall_mem_cons.mpr ⟨hentries, hsections⟩⟩

theorem Fits.sections_fold {ss : List Section} (hss : ∀ s ∈ ss, ∀ e ∈ s.entries, e.value.Fits)
    {ms ms' : Members} (hms : ms.Fit) (h : ss.foldlM Members.insertSection? ms = some ms') :
    ms'.Fit := by
  induction ss generalizing ms with
  | nil => cases h; exact hms
  | cons s ss ih =>
    obtain ⟨hs, hss⟩ := List.forall_mem_cons.mp hss
    rw [List.foldlM_cons] at h
    obtain ⟨ms₁, hfirst, h⟩ := Option.bind_eq_some_iff.mp h
    exact ih hss (Members.Fit.insertSection? hs hms hfirst) h

theorem Fits.value? {d : Document} (hd : d.Fits) {v : Value} (h : d.value? = some v) : v.Fits := by
  obtain ⟨ms, hms, rfl⟩ := Option.map_eq_some_iff.mp h
  obtain ⟨first, hfirst, hms⟩ := Option.bind_eq_some_iff.mp hms
  exact .table (fits_memberValues
    (Fits.sections_fold hd.sections (Members.Fit.insertEntries? hd.entries .nil hfirst) hms))

end Document

theorem Value.fits_ofString {s : String} {v : Value} (h : Value.ofString? s = some v) : v.Fits := by
  obtain ⟨d, hd, hv⟩ := Option.bind_eq_some_iff.mp h
  obtain ⟨ls, hls, rfl⟩ := Option.map_eq_some_iff.mp hd
  exact (Document.fits_ofLines (fits_readLines hls)).value? hv

end CalendarRules.Toml
