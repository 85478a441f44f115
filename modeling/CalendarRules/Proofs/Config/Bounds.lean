import CalendarRules.Proofs.Config.RoundTrip
import CalendarRules.Proofs.Toml.Bounds

/-!
# Whatever is loaded can be stored

The priorities and orders of a rule are read as numbers of 32 bits, and the limit of a preview as
a whole number of 64 bits with a sign. So storing a configuration that was loaded never fails for
want of a text.
-/

namespace CalendarRules

open Toml

theorem fits32_of_whole32? {α : Type} [DataFormat α] {v : α} {n : Int}
    (h : Record.whole32? v = some n) : Fits32 n := by
  obtain ⟨m, -, hm⟩ := Option.bind_eq_some_iff.mp h
  split at hm
  · rename_i hbounds
    cases hm
    simpa [Fits32] using hbounds
  · cases hm

theorem fits32_of_getD? {α : Type} [DataFormat α] {r : Record α} {name : String} {n : Int}
    (h : r.getD? name Record.whole32? 0 = some n) : Fits32 n := by
  unfold Record.getD? at h
  split at h
  · cases h
    exact ⟨by decide, by decide⟩
  · exact fits32_of_whole32? h

namespace Record

def Fits (r : Record Value) : Prop := ∀ m ∈ r.members, m.2.Fits

theorem fits_of_ofMembers? {v : Value} (hv : v.Fits) {r : Record Value}
    (h : Record.ofMembers? v = some r) : r.Fits := by
  obtain ⟨ms, hms, rfl⟩ := Option.map_eq_some_iff.mp h
  cases hv with
  | table hmembers => cases hms; exact hmembers
  | time => cases hms; simp [Fits]
  | _ => cases hms

theorem fits_of_ofItems? {v : Value} (hv : v.Fits) {names : List String} {r : Record Value}
    (h : Record.ofItems? names v = some r) : r.Fits := by
  obtain ⟨items, hitems, hrecord⟩ := Option.bind_eq_some_iff.mp h
  cases hv with
  | list hlist =>
    cases hitems
    split at hrecord
    · cases hrecord
    · cases hrecord
      intro m hm
      exact hlist m.2 (List.of_mem_zip hm).2
  | _ => cases hitems

theorem fits_of_get? {r : Record Value} (hr : r.Fits) {name : String} {v : Value}
    (h : r.get? name = some v) : v.Fits := by
  obtain ⟨m, hm, rfl⟩ := Option.map_eq_some_iff.mp h
  exact hr m (List.mem_reverse.mp (List.mem_of_find?_eq_some hm))

end Record

theorem mem_of_mapM {α β : Type} {decode : α → Option β} {as : List α} {bs : List β}
    (h : as.mapM decode = some bs) : ∀ b ∈ bs, ∃ a ∈ as, decode a = some b := by
  induction as generalizing bs with
  | nil => cases h; simp
  | cons a as ih =>
    rw [List.mapM_cons] at h
    obtain ⟨b, hb, h⟩ := Option.bind_eq_some_iff.mp h
    obtain ⟨bs, hbs, h⟩ := Option.bind_eq_some_iff.mp h
    cases h
    intro b' hb'
    rcases List.mem_cons.mp hb' with rfl | hb'
    · exact ⟨a, List.mem_cons_self, hb⟩
    · obtain ⟨a', ha', hdecode⟩ := ih hbs b' hb'
      exact ⟨a', List.mem_cons_of_mem _ ha', hdecode⟩

theorem Rule.storable_of_decode? {α : Type} [DataFormat α] {v : α} {r : Rule}
    (h : Rule.decode? v = some r) : r.Storable := by
  simp only [Rule.decode?, Option.bind_eq_bind, Option.bind_eq_some_iff, Option.some.injEq] at h
  obtain ⟨_, -, _, -, _, -, _, -, _, -, _, hpriority, _, horder, _, -, rfl⟩ := h
  exact ⟨fits32_of_getD? hpriority, fits32_of_getD? horder⟩

namespace Config

theorem le_of_natural? {v : Value} (hv : v.Fits) {n : Nat} (h : natural? v = some n) :
    (n : Int) ≤ maxWhole := by
  obtain ⟨m, hm, hn⟩ := Option.bind_eq_some_iff.mp h
  cases hv with
  | whole hfits =>
    cases hm
    have hle := ((fitsWhole_iff _).mp hfits).2
    split at hn
    · cases hn
      omega
    · cases hn
  | _ => cases hm

theorem le_of_decodeOnly? {v : Value} (hv : v.Fits) {limit : Option Nat}
    (h : decodeOnly? "limit" natural? v = some limit) : ∀ n ∈ limit, (n : Int) ≤ maxWhole := by
  unfold decodeOnly? at h
  split at h
  · rename_i r hr
    unfold Record.optional? Record.getD? at h
    split at h
    · cases h
      simp
    · rename_i w hw
      obtain ⟨n, hn, rfl⟩ := Option.map_eq_some_iff.mp h
      rintro _ ⟨⟩
      exact le_of_natural? (Record.fits_of_get? (Record.fits_of_ofMembers? hv hr) hw) hn
  · obtain ⟨r, hr, h⟩ := Option.bind_eq_some_iff.mp h
    obtain ⟨n, hn, h⟩ := Option.bind_eq_some_iff.mp h
    obtain ⟨w, hw, hn⟩ := Option.bind_eq_some_iff.mp hn
    cases h
    rintro _ ⟨⟩
    exact le_of_natural? (Record.fits_of_get? (Record.fits_of_ofItems? hv hr) hw) hn

theorem storable_of_decode? {v : Value} (hv : v.Fits) {c : Config} (h : decode? v = some c) :
    c.Storable := by
  simp only [decode?, RuleBook.decode?, Option.bind_eq_bind, Option.bind_eq_some_iff,
    Option.some.injEq] at h
  obtain ⟨r, hr, _, -, _, -, limit, hlimit, book, ⟨rules, hrules, _, -, rfl⟩, rfl⟩ := h
  have hfits := Record.fits_of_ofMembers? hv hr
  constructor
  · unfold Record.getD? at hlimit
    split at hlimit
    · cases hlimit
      simp
    · rename_i w hw
      exact le_of_decodeOnly? (Record.fits_of_get? hfits hw) hlimit
  · unfold Record.getD? at hrules
    split at hrules
    · cases hrules
      simp
    · obtain ⟨vs, -, hvs⟩ := Option.bind_eq_some_iff.mp hrules
      intro rule hrule
      obtain ⟨w, -, hw⟩ := mem_of_mapM hvs rule hrule
      exact Rule.storable_of_decode? hw

theorem storable_of_ofString? {s : String} {c : Config} (h : ofString? s = some c) :
    c.Storable := by
  obtain ⟨v, hv, hc⟩ := Option.bind_eq_some_iff.mp h
  exact storable_of_decode? (Toml.Value.fits_ofString hv) hc

theorem storable_default : Storable {} := ⟨by simp, by simp⟩

end Config

end CalendarRules
