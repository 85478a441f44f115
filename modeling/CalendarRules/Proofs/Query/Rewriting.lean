import CalendarRules.Proofs.Query.Monotone
import Mathlib.Logic.Relation

/-!
# Rewriting queries without changing what they match

Items are joined by "and", members of a group by "or". So their order and their repetitions do not
count, and a group in a group is no more than its members. A query without items matches nothing,
and so does a query with a group that has no terms.
-/

namespace CalendarRules

namespace Node

/-! ## Steps -/

/-- One step of rewriting in a row of nodes: the members of a group, or the items of a query. -/
inductive Rewrites : (inGroup : Bool) → List Node → List Node → Prop
  | permute {inGroup : Bool} {ms ns : List Node} (h : ms.Perm ns) : Rewrites inGroup ms ns
  | drop {inGroup : Bool} {n : Node} {front back : List Node} (h : n ∈ front ++ back) :
    Rewrites inGroup (front ++ n :: back) (front ++ back)
  | flatten (front ms back : List Node) :
    Rewrites true (front ++ .anyOf ms :: back) (front ++ (ms ++ back))
  | unwrap {inGroup : Bool} (n : Node) (front back : List Node) :
    Rewrites inGroup (front ++ .anyOf [n] :: back) (front ++ n :: back)
  | inside {inGroup : Bool} {ms ns : List Node} (front back : List Node)
    (h : Rewrites true ms ns) :
    Rewrites inGroup (front ++ .anyOf ms :: back) (front ++ .anyOf ns :: back)

section SameNodes

variable {ms ns : List Node} (h : ∀ n, n ∈ ms ↔ n ∈ ns) (p : Node → Bool)
include h

theorem any_of_same : ms.any p = ns.any p := by
  rw [Bool.eq_iff_iff, List.any_eq_true, List.any_eq_true]
  simp only [h]

theorem all_of_same : ms.all p = ns.all p := by
  rw [Bool.eq_iff_iff, List.all_eq_true, List.all_eq_true]
  simp only [h]

end SameNodes

theorem same_of_drop {n : Node} {front back : List Node} (h : n ∈ front ++ back) (m : Node) :
    m ∈ front ++ n :: back ↔ m ∈ front ++ back := by
  have hcons : m ∈ front ++ n :: back ↔ m = n ∨ m ∈ front ++ back := by
    rw [List.mem_append, List.mem_cons, List.mem_append, or_left_comm]
  rw [hcons]
  exact or_iff_right_of_imp fun hm => hm ▸ h

theorem any_of_rewrites {inGroup : Bool} {ms ns : List Node} (h : Rewrites inGroup ms ns)
    (e : Event) : ms.any (·.holds e) = ns.any (·.holds e) := by
  induction h with
  | permute h => exact any_of_same (fun n => h.mem_iff) _
  | drop h => exact any_of_same (same_of_drop h) _
  | flatten front ms back => simp [holds_anyOf]
  | unwrap n front back => simp [holds_anyOf]
  | inside front back h ih => simp [holds_anyOf, ih]

theorem all_of_rewrites {ms ns : List Node} (h : Rewrites false ms ns) (e : Event) :
    ms.all (·.holds e) = ns.all (·.holds e) := by
  cases h with
  | permute h => exact all_of_same (fun n => h.mem_iff) _
  | drop h => exact all_of_same (same_of_drop h) _
  | unwrap n front back => simp [holds_anyOf]
  | inside front back h => simp [holds_anyOf, any_of_rewrites h]

theorem isEmpty_of_rewrites {ms ns : List Node} (h : Rewrites false ms ns) :
    ms.isEmpty = ns.isEmpty := by
  cases h with
  | permute h => exact h.isEmpty_eq
  | @drop _ n front back h =>
    have hne := List.ne_nil_of_mem h
    cases front <;> cases back <;> simp_all
  | unwrap n front back => cases front <;> rfl
  | inside front back h => cases front <;> rfl

theorem holds_of_no_terms (e : Event) (n : Node) (h : n.terms = []) : n.holds e = false := by
  rw [← Bool.not_eq_true]
  intro hholds
  obtain ⟨t, ht, -⟩ := n.exists_term_of_holds hholds
  rw [h] at ht
  cases ht

end Node

namespace Query

/-- One step of rewriting, at any depth of the query. -/
def Rewrites (q q' : Query) : Prop := Node.Rewrites false q.items q'.items

theorem holds_of_rewrites {q q' : Query} (h : Rewrites q q') (e : Event) :
    q.holds e = q'.holds e := by
  rw [holds, holds, isEmpty, isEmpty, Node.isEmpty_of_rewrites h, Node.all_of_rewrites h]

theorem holds_of_eqvGen {q q' : Query} (h : Relation.EqvGen Rewrites q q') (e : Event) :
    q.holds e = q'.holds e := by
  induction h with
  | rel q q' h => exact holds_of_rewrites h e
  | refl q => rfl
  | symm q q' h ih => exact ih.symm
  | trans q q' q'' h h' ih ih' => exact ih.trans ih'

/-- What a query matches does not change in any number of steps, in either direction. The items of
two queries that have items match together what both queries match. A query without items matches
nothing, nor does one with a group without terms among its items. -/
theorem holds_laws (e : Event) :
    (∀ q q', Relation.EqvGen Rewrites q q' → q.holds e = q'.holds e) ∧
      (∀ q₁ q₂ : Query, q₁.items ≠ [] → q₂.items ≠ [] →
        ((⟨q₁.items ++ q₂.items⟩ : Query).holds e = true ↔
          q₁.holds e = true ∧ q₂.holds e = true)) ∧
      (⟨[]⟩ : Query).holds e = false ∧
      ∀ (q : Query) (ms : List Node), .anyOf ms ∈ q.items → (Node.anyOf ms).terms = [] →
        q.holds e = false := by
  refine ⟨fun q q' h => holds_of_eqvGen h e, ?_, rfl, ?_⟩
  · intro q₁ q₂ hne₁ hne₂
    simp only [holds_iff, List.mem_append, or_imp, forall_and, ne_eq, List.append_eq_nil_iff, hne₁,
      hne₂, false_and, not_false_eq_true, true_and]
  · intro q ms hmem hterms
    rw [← Bool.not_eq_true, holds_iff]
    rintro ⟨-, hall⟩
    have hfalse := Node.holds_of_no_terms e _ hterms
    rw [hall _ hmem] at hfalse
    cases hfalse

/-- A group in a group, a group of one and an item that stands there twice. -/
theorem holds_laws_nested :
    let e : Event := { title := some "Weekly Sync" }
    let sync : Node := .term ⟨"title", "sync"⟩
    let lunch : Node := .term ⟨"title", "lunch"⟩
    let q : Query := ⟨[.anyOf [.anyOf [lunch, sync], lunch], sync, sync]⟩
    let q' : Query := ⟨[sync, .anyOf [sync, lunch]]⟩
    Relation.EqvGen Rewrites q q' ∧ q.holds e = q'.holds e ∧ q.items ≠ [] ∧ q'.items ≠ [] ∧
      ((⟨q.items ++ q'.items⟩ : Query).holds e = true ↔ q.holds e = true ∧ q'.holds e = true) ∧
      .anyOf [.anyOf []] ∈ [sync, .anyOf [.anyOf []]] ∧ (Node.anyOf [.anyOf []]).terms = [] ∧
      (⟨[sync, .anyOf [.anyOf []]]⟩ : Query).holds e = false := by
  intro e sync lunch q q'
  have hflatten : Rewrites q ⟨[.anyOf [lunch, sync, lunch], sync, sync]⟩ :=
    .inside [] _ (.flatten [] _ [lunch])
  have hmember : Rewrites ⟨[.anyOf [lunch, sync, lunch], sync, sync]⟩
      ⟨[.anyOf [sync, lunch], sync, sync]⟩ :=
    .inside [] _ (@Node.Rewrites.drop _ lunch [] [sync, lunch] (by simp))
  have hitem : Rewrites ⟨[.anyOf [sync, lunch], sync, sync]⟩ ⟨[.anyOf [sync, lunch], sync]⟩ :=
    @Node.Rewrites.drop _ sync [.anyOf [sync, lunch]] [sync] (by simp)
  have hswap : Rewrites ⟨[.anyOf [sync, lunch], sync]⟩ q' := .permute (.swap ..)
  have hrewrites : Relation.EqvGen Rewrites q q' :=
    .trans _ _ _ (.rel _ _ hflatten) (.trans _ _ _ (.rel _ _ hmember)
      (.trans _ _ _ (.rel _ _ hitem) (.rel _ _ hswap)))
  obtain ⟨hsame, hboth, -, hnone⟩ := holds_laws e
  refine ⟨hrewrites, hsame q q' hrewrites, by simp [q], by simp [q'],
    hboth q q' (by simp [q]) (by simp [q']), by simp, rfl, ?_⟩
  exact hnone ⟨[sync, .anyOf [.anyOf []]]⟩ [.anyOf []] (by simp) rfl

end Query

end CalendarRules
