import CalendarRules.Query.Basic
import Mathlib.Data.List.Forall2

/-!
# The places of nodes and terms in a query

A place says which way to go to a node: which item of the query, which member of that group, and so
on, counted from zero. Of two places the first is the one that turns off earlier or goes less far.
Going through the terms of a query from left to right, or through all its nodes from each group to
its members, goes through their places in this order and leaves out none.
-/

namespace CalendarRules

namespace Node

/-- The node at a place at or below a node, if there is one. -/
def nodeAt? : Node → List Nat → Option Node
  | n, [] => some n
  | .anyOf ms, i :: place => ms[i]?.bind (nodeAt? · place)
  | .term _, _ :: _ => none

mutual

/-- A node and the nodes below it with their places, each before its members. -/
def visited : Node → List (List Nat × Node)
  | .term t => [([], .term t)]
  | .anyOf ms => ([], .anyOf ms) :: membersVisited 0 ms

def membersVisited (i : Nat) : List Node → List (List Nat × Node)
  | [] => []
  | m :: ms => m.visited.map (fun a => (i :: a.1, a.2)) ++ membersVisited (i + 1) ms

end

mutual

theorem mem_visited : (n : Node) → ∀ place m,
    (place, m) ∈ n.visited ↔ n.nodeAt? place = some m
  | .term t, place, m => by cases place <;> simp [visited, nodeAt?, eq_comm]
  | .anyOf ms, place, m => by
    rw [visited, List.mem_cons, mem_membersVisited 0 ms]
    cases place <;> simp [nodeAt?, eq_comm]

theorem mem_membersVisited (i : Nat) : (ms : List Node) → ∀ place n,
    (place, n) ∈ membersVisited i ms ↔
      ∃ j rest, place = (i + j) :: rest ∧ ms[j]?.bind (nodeAt? · rest) = some n
  | [], place, n => by simp [membersVisited]
  | m :: ms, place, n => by
    rw [membersVisited, List.mem_append, mem_membersVisited (i + 1) ms]
    constructor
    · rintro (h | ⟨j, rest, rfl, h⟩)
      · obtain ⟨⟨rest, k⟩, hk, heq⟩ := List.mem_map.mp h
        cases heq
        exact ⟨0, rest, rfl, (mem_visited m rest k).mp hk⟩
      · exact ⟨j + 1, rest, by rw [Nat.add_right_comm, Nat.add_assoc], h⟩
    · rintro ⟨_ | j, rest, rfl, h⟩
      · exact .inl (List.mem_map.mpr ⟨(rest, n), (mem_visited m rest n).mpr h, rfl⟩)
      · exact .inr ⟨j, rest, by rw [Nat.add_right_comm, Nat.add_assoc], h⟩

end

mutual

theorem pairwise_visited : (n : Node) → n.visited.Pairwise (·.1 < ·.1)
  | .term _ => List.pairwise_singleton ..
  | .anyOf ms => by
    refine .cons (fun a ha => ?_) (pairwise_membersVisited 0 ms)
    obtain ⟨j, rest, hplace, -⟩ := (mem_membersVisited 0 ms a.1 a.2).mp ha
    rw [hplace]
    exact .nil

theorem pairwise_membersVisited (i : Nat) : (ms : List Node) →
    (membersVisited i ms).Pairwise (·.1 < ·.1)
  | [] => .nil
  | m :: ms => by
    rw [membersVisited, List.pairwise_append, List.pairwise_map]
    refine ⟨?_, pairwise_membersVisited (i + 1) ms, ?_⟩
    · exact (pairwise_visited m).imp fun h => List.cons_lt_cons_iff.mpr (.inr ⟨rfl, h⟩)
    · rintro _ ha ⟨place, t⟩ hb
      obtain ⟨a, -, rfl⟩ := List.mem_map.mp ha
      obtain ⟨j, rest, rfl, -⟩ := (mem_membersVisited (i + 1) ms place t).mp hb
      exact List.cons_lt_cons_iff.mpr (.inl (by omega))

end

/-! ## Terms -/

/-- The term at a place below a node, if there is one. -/
def termAt? : Node → List Nat → Option Term
  | .term t, [] => some t
  | .anyOf ms, i :: place => ms[i]?.bind (termAt? · place)
  | _, _ => none

mutual

/-- The terms with their places, from left to right. -/
def located : Node → List (List Nat × Term)
  | .term t => [([], t)]
  | .anyOf ms => membersLocated 0 ms

def membersLocated (i : Nat) : List Node → List (List Nat × Term)
  | [] => []
  | m :: ms => m.located.map (fun a => (i :: a.1, a.2)) ++ membersLocated (i + 1) ms

end

mutual

theorem map_snd_located : (n : Node) → n.located.map Prod.snd = n.terms
  | .term _ => rfl
  | .anyOf ms => map_snd_membersLocated 0 ms

theorem map_snd_membersLocated (i : Nat) : (ms : List Node) →
    (membersLocated i ms).map Prod.snd = membersTerms ms
  | [] => rfl
  | m :: ms => by
    rw [membersLocated, List.map_append, List.map_map, map_snd_membersLocated (i + 1) ms,
      membersTerms, ← map_snd_located m]
    rfl

end

/-- The term that a node is. -/
def term? : Node → Option Term
  | .term t => some t
  | .anyOf _ => none

theorem termAt?_eq (n : Node) (place : List Nat) :
    n.termAt? place = (n.nodeAt? place).bind term? := by
  induction place generalizing n with
  | nil => cases n <;> rfl
  | cons i place ih =>
    cases n with
    | term t => rfl
    | anyOf ms =>
      rw [termAt?, nodeAt?, Option.bind_assoc]
      exact Option.bind_congr fun m _ => ih m

mutual

theorem located_eq : (n : Node) →
    n.located = n.visited.filterMap fun a => a.2.term?.map (a.1, ·)
  | .term _ => rfl
  | .anyOf ms => membersLocated_eq 0 ms

theorem membersLocated_eq (i : Nat) : (ms : List Node) →
    membersLocated i ms = (membersVisited i ms).filterMap fun a => a.2.term?.map (a.1, ·)
  | [] => rfl
  | m :: ms => by
    rw [membersLocated, membersVisited, List.filterMap_append, List.filterMap_map,
      membersLocated_eq (i + 1) ms, located_eq m, List.map_filterMap]
    congr 2
    funext a
    cases h : a.2.term? <;> simp [h]

end

theorem mem_located (n : Node) (place : List Nat) (t : Term) :
    (place, t) ∈ n.located ↔ n.termAt? place = some t := by
  rw [located_eq, List.mem_filterMap, termAt?_eq, Option.bind_eq_some_iff]
  constructor
  · rintro ⟨⟨_, m⟩, hm, hterm⟩
    obtain ⟨s, hs, heq⟩ := Option.map_eq_some_iff.mp hterm
    cases heq
    exact ⟨m, (mem_visited n _ m).mp hm, hs⟩
  · rintro ⟨m, hm, hterm⟩
    exact ⟨(place, m), (mem_visited n place m).mpr hm, by rw [hterm]; rfl⟩

theorem pairwise_located (n : Node) : n.located.Pairwise (·.1 < ·.1) := by
  rw [located_eq]
  refine (pairwise_visited n).filterMap _ fun a b hlt a' ha' b' hb' => ?_
  obtain ⟨-, -, rfl⟩ := Option.map_eq_some_iff.mp ha'
  obtain ⟨-, -, rfl⟩ := Option.map_eq_some_iff.mp hb'
  exact hlt

end Node

namespace Query

def termAt? (q : Query) (place : List Nat) : Option Term := (Node.anyOf q.items).termAt? place

/-- These are the terms of the query that are `P`, each once, in the order of their places. -/
structure Finds (q : Query) (P : Term → Prop) (found : List (List Nat × Term)) : Prop where
  ascending : found.Pairwise (·.1 < ·.1)
  mem_iff : ∀ place t, (place, t) ∈ found ↔ q.termAt? place = some t ∧ P t

/-- The entries stand for the terms of the query that are `P`, one for each in their order. -/
def Lists {α : Type} (q : Query) (P : Term → Prop) (ToldBy : Term → α → Prop) (entries : List α) :
    Prop :=
  ∃ found, q.Finds P found ∧ List.Forall₂ (fun a entry => ToldBy a.2 entry) found entries

def located (q : Query) : List (List Nat × Term) := (Node.anyOf q.items).located

theorem map_snd_located (q : Query) : q.located.map Prod.snd = q.terms :=
  (Node.anyOf q.items).map_snd_located

theorem finds_filter (q : Query) (P : Term → Prop) [DecidablePred P] :
    q.Finds P (q.located.filter fun a => P a.2) where
  ascending := (Node.anyOf q.items).pairwise_located.filter _
  mem_iff place t := by
    rw [List.mem_filter, decide_eq_true_eq, located, Node.mem_located]
    rfl

theorem lists_map {α : Type} {q : Query} {P : Term → Prop} [DecidablePred P]
    {ToldBy : Term → α → Prop} {f : Term → α} (h : ∀ t, P t → ToldBy t (f t)) :
    q.Lists P ToldBy ((q.terms.filter fun t => P t).map f) := by
  refine ⟨_, q.finds_filter P, ?_⟩
  rw [← map_snd_located, List.filter_map, List.map_map, List.forall₂_map_right_iff]
  refine List.forall₂_same.mpr fun a ha => ?_
  exact h a.2 (of_decide_eq_true (List.mem_filter.mp ha).2)

end Query

end CalendarRules
