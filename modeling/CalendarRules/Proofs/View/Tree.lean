import CalendarRules.Proofs.Query.Places
import CalendarRules.Proofs.Query.RoundTrip
import CalendarRules.Proofs.Text.Lines
import CalendarRules.Proofs.Text.Quoted
import CalendarRules.View.Query

/-!
# The tree of a query

In the tree each node has a line, and the blanks in front of it tell its level. A group is over
where a line stands no further in than the group itself, so the lines tell the groups apart, and the
text of a line tells its term. So there is no other query with that tree.
-/

namespace CalendarRules

open Text Query.Grammar
open Json (NoControl)

/-! ## Lines -/

namespace Term

def kindName (t : Term) : String :=
  match Property.ofName? t.property with
  | some p => p.kind.name
  | none => "unknown"

def style (t : Term) : Style := if (Property.ofName? t.property).isSome then .cyan else .red

theorem treeLine_eq (colours : Bool) (depth : Nat) (t : Term) :
    t.treeLine colours depth = line (indent depth ++ t.style.paint colours t.property ++ " = " ++
      quoted t.value ++ " (" ++ t.kindName ++ ")") := by
  unfold treeLine kindName style
  cases Property.ofName? t.property <;> rfl

end Term

namespace Node

/-- The text of the line of a node, without the blanks that show its level. -/
def entry : Node → String
  | .term t => t.property ++ " = " ++ quoted t.value ++ " (" ++ t.kindName ++ ")"
  | .anyOf [] => "any of: (empty, never matches)"
  | .anyOf (_ :: _) => "any of:"

theorem tree_term (depth : Nat) (t : Term) :
    (Node.term t).tree false depth = line (indent depth ++ (Node.term t).entry) := by
  simp only [tree, entry, t.treeLine_eq, String.append_assoc, Style.paint, Bool.false_eq_true,
    if_false]

theorem tree_anyOf (colours : Bool) (depth : Nat) (ms : List Node) :
    (Node.anyOf ms).tree colours depth =
      line (indent depth ++ (Node.anyOf ms).entry) ++ treeMembers colours (depth + 1) ms := by
  cases ms with
  | nil => rw [tree, treeMembers, String.append_empty, entry]
  | cons m ms => rw [tree, entry]

mutual

/-- The level and the text of each line. -/
def outline (depth : Nat) : Node → List (Nat × String)
  | .term t => [(depth, (Node.term t).entry)]
  | .anyOf ms => (depth, (Node.anyOf ms).entry) :: membersOutline (depth + 1) ms

def membersOutline (depth : Nat) : List Node → List (Nat × String)
  | [] => []
  | m :: ms => m.outline depth ++ membersOutline depth ms

end

def outlineLine (a : Nat × String) : List Char := List.replicate (2 * a.1) ' ' ++ a.2.toList

theorem toList_line (depth : Nat) (s : String) :
    (line (indent depth ++ s)).toList = outlineLine (depth, s) ++ ['\n'] := by
  simp [line, indent, outlineLine]

mutual

theorem toList_tree (depth : Nat) : (n : Node) →
    (n.tree false depth).toList = (n.outline depth).flatMap fun a => outlineLine a ++ ['\n']
  | .term t => by
    rw [tree_term, toList_line, outline, List.flatMap_cons, List.flatMap_nil, List.append_nil]
  | .anyOf ms => by
    rw [tree_anyOf, String.toList_append, toList_line, toList_treeMembers (depth + 1) ms, outline,
      List.flatMap_cons]

theorem toList_treeMembers (depth : Nat) : (ms : List Node) →
    (treeMembers false depth ms).toList =
      (membersOutline depth ms).flatMap fun a => outlineLine a ++ ['\n']
  | [] => rfl
  | m :: ms => by
    rw [treeMembers, String.toList_append, toList_tree depth m, toList_treeMembers depth ms,
      membersOutline, List.flatMap_append]

end

/-! ## Texts of lines -/

end Node

theorem Query.toNat_of_mem_lowerName {cs : List Char} (h : Name LowerLetter cs) :
    ∀ c ∈ cs, 0x21 ≤ c.toNat := by
  have hletter {c : Char} (hc : LowerLetter c) : 0x21 ≤ c.toNat := by
    rw [Query.lowerLetter_iff] at hc
    omega
  cases cs with
  | nil => exact h.elim
  | cons d ds =>
    refine List.forall_mem_cons.mpr ⟨hletter h.1, fun c hc => ?_⟩
    rcases h.2 c hc with hc | ⟨hc, -⟩ | rfl
    · exact hletter hc
    · exact Nat.le_trans (by decide) hc
    · decide

theorem Term.noControl_kindName (t : Term) : NoControl t.kindName.toList := by
  unfold kindName
  split
  · rename_i p _
    cases p <;> decide
  · decide

namespace Node

open Query

theorem toList_entry_term (t : Term) :
    (Node.term t).entry.toList = t.property.toList ++ ' ' :: '=' :: ' ' ::
      ((quoted t.value).toList ++ (" (" ++ t.kindName ++ ")").toList) := by
  simp [entry]

theorem toList_entry_anyOf (ms : List Node) :
    ∃ rest, (Node.anyOf ms).entry.toList = ['a', 'n', 'y'] ++ ' ' :: 'o' :: rest := by
  cases ms with
  | nil => exact ⟨"f: (empty, never matches)".toList, by decide +kernel⟩
  | cons m ms => exact ⟨"f:".toList, by rw [entry]; decide⟩

theorem noControl_entry {n : Node} (h : NamedTerms n.terms) : NoControl n.entry.toList := by
  cases n with
  | term t =>
    have hname := Query.toNat_of_mem_lowerName ((namedTerms_singleton t).mp h)
    have hproperty : NoControl t.property.toList := fun c hc => Nat.le_of_succ_le (hname c hc)
    rw [entry, String.toList_append, String.toList_append, String.toList_append,
      String.toList_append, String.toList_append]
    exact ((((hproperty.append (by decide)).append (noControl_quoted _)).append (by decide)).append
      t.noControl_kindName).append (by decide)
  | anyOf ms => cases ms <;> rw [entry] <;> decide

theorem head?_entry {n : Node} (h : NamedTerms n.terms) :
    ∃ c, n.entry.toList.head? = some c ∧ c ≠ ' ' := by
  cases n with
  | term t =>
    have hname := (namedTerms_singleton t).mp h
    have hchars := Query.toNat_of_mem_lowerName hname
    rw [toList_entry_term]
    cases hproperty : t.property.toList with
    | nil =>
      rw [hproperty] at hname
      exact hname.elim
    | cons c cs =>
      refine ⟨c, rfl, ?_⟩
      rintro rfl
      exact absurd (hchars ' ' (hproperty ▸ List.mem_cons_self)) (by decide)
  | anyOf ms =>
    obtain ⟨rest, hrest⟩ := toList_entry_anyOf ms
    exact ⟨'a', by rw [hrest]; rfl, by decide⟩

theorem space_notMem_property {t : Term} (h : NamedTerms [t]) : ' ' ∉ t.property.toList :=
  fun hc => absurd (Query.toNat_of_mem_lowerName ((namedTerms_singleton t).mp h) _ hc) (by decide)

theorem entry_term_inj {t u : Term} (ht : NamedTerms [t]) (hu : NamedTerms [u])
    (h : (Node.term t).entry = (Node.term u).entry) : t = u := by
  have hlist := congrArg String.toList h
  rw [toList_entry_term, toList_entry_term] at hlist
  obtain ⟨hproperty, htail⟩ :=
    append_cons_inj (space_notMem_property ht) (space_notMem_property hu) hlist
  simp only [List.cons.injEq, true_and] at htail
  obtain ⟨hvalue, -⟩ := quoted_append_inj htail
  change Term.mk t.property t.value = Term.mk u.property u.value
  rw [String.toList_inj.mp hproperty, hvalue]

theorem entry_term_ne_anyOf {t : Term} (ht : NamedTerms [t]) (ms : List Node) :
    (Node.term t).entry ≠ (Node.anyOf ms).entry := by
  intro h
  have hlist := congrArg String.toList h
  obtain ⟨rest, hrest⟩ := toList_entry_anyOf ms
  rw [toList_entry_term, hrest] at hlist
  obtain ⟨-, htail⟩ := append_cons_inj (space_notMem_property ht) (by decide) hlist
  exact absurd (List.cons.inj htail).1 (by decide)

/-! ## The lines tell the tree -/

/-- The lines that follow stand further out. -/
def Outside (depth : Nat) (rest : List (Nat × String)) : Prop := ∀ a ∈ rest.head?, a.1 < depth

theorem outside_membersOutline {depth : Nat} {rest : List (Nat × String)} (h : Outside depth rest)
    (ms : List Node) : Outside (depth + 1) (membersOutline depth ms ++ rest) := by
  cases ms with
  | nil => exact fun a ha => Nat.lt_succ_of_lt (h a ha)
  | cons m ms =>
    intro a ha
    cases m <;> cases ha <;> exact Nat.lt_succ_self depth

theorem membersOutline_cons_ne {depth : Nat} {rest : List (Nat × String)} (h : Outside depth rest)
    (m : Node) (ms : List Node) (rest' : List (Nat × String)) :
    membersOutline depth (m :: ms) ++ rest' ≠ rest := by
  rintro rfl
  cases m <;> exact absurd (h _ rfl) (Nat.lt_irrefl depth)

mutual

theorem outline_append_inj {depth : Nat} {rest rest' : List (Nat × String)} :
    (m n : Node) → NamedTerms m.terms → NamedTerms n.terms →
    Outside (depth + 1) rest → Outside (depth + 1) rest' →
    m.outline depth ++ rest = n.outline depth ++ rest' → m = n ∧ rest = rest'
  | .term t, .term u, ht, hu, _, _, h => by
    rw [outline, outline, List.cons_append, List.cons_append, List.cons.injEq] at h
    rw [entry_term_inj ht hu (Prod.mk.inj h.1).2]
    exact ⟨rfl, h.2⟩
  | .anyOf ms, .anyOf ns, hms, hns, hrest, hrest', h => by
    rw [outline, outline, List.cons_append, List.cons_append, List.cons.injEq] at h
    obtain ⟨hmembers, htail⟩ := membersOutline_append_inj ms ns hms hns hrest hrest' h.2
    exact ⟨congrArg Node.anyOf hmembers, htail⟩
  | .term t, .anyOf ns, ht, _, _, _, h => by
    rw [outline, outline, List.cons_append, List.cons_append, List.cons.injEq] at h
    exact absurd (Prod.mk.inj h.1).2 (entry_term_ne_anyOf ht ns)
  | .anyOf ms, .term u, _, hu, _, _, h => by
    rw [outline, outline, List.cons_append, List.cons_append, List.cons.injEq] at h
    exact absurd (Prod.mk.inj h.1).2.symm (entry_term_ne_anyOf hu ms)

theorem membersOutline_append_inj {depth : Nat} {rest rest' : List (Nat × String)} :
    (ms ns : List Node) → NamedTerms (membersTerms ms) → NamedTerms (membersTerms ns) →
    Outside depth rest → Outside depth rest' →
    membersOutline depth ms ++ rest = membersOutline depth ns ++ rest' → ms = ns ∧ rest = rest'
  | [], [], _, _, _, _, h => ⟨rfl, h⟩
  | m :: ms, [], _, _, _, hrest', h => absurd h (membersOutline_cons_ne hrest' m ms rest)
  | [], n :: ns, _, _, hrest, _, h => absurd h.symm (membersOutline_cons_ne hrest n ns rest')
  | m :: ms, n :: ns, hms, hns, hrest, hrest', h => by
    rw [membersTerms, namedTerms_append] at hms hns
    rw [membersOutline, membersOutline, List.append_assoc, List.append_assoc] at h
    -- The line after the first member is one of a sibling, or it stands further out.
    obtain ⟨rfl, htail⟩ := outline_append_inj m n hms.1 hns.1 (outside_membersOutline hrest ms)
      (outside_membersOutline hrest' ns) h
    obtain ⟨rfl, hfollows⟩ := membersOutline_append_inj ms ns hms.2 hns.2 hrest hrest' htail
    exact ⟨rfl, hfollows⟩

end

theorem membersOutline_inj {depth : Nat} {ms ns : List Node} (hms : NamedTerms (membersTerms ms))
    (hns : NamedTerms (membersTerms ns)) (h : membersOutline depth ms = membersOutline depth ns) :
    ms = ns := by
  have hend : Outside depth [] := by simp [Outside]
  rw [← List.append_nil (membersOutline depth ms), ← List.append_nil (membersOutline depth ns)] at h
  exact (membersOutline_append_inj ms ns hms hns hend hend h).1

/-! ## One line for each node -/

mutual

theorem map_visited (depth : Nat) : (n : Node) →
    n.visited.map (fun a => (depth + a.1.length, a.2.entry)) = n.outline depth
  | .term _ => rfl
  | .anyOf ms => by
    rw [visited, outline, List.map_cons, map_membersVisited depth 0 ms]
    rfl

theorem map_membersVisited (depth i : Nat) : (ms : List Node) →
    (membersVisited i ms).map (fun a => (depth + a.1.length, a.2.entry)) =
      membersOutline (depth + 1) ms
  | [] => rfl
  | m :: ms => by
    rw [membersVisited, List.map_append, List.map_map, map_membersVisited depth (i + 1) ms,
      membersOutline, ← map_visited (depth + 1) m]
    congr 2
    funext a
    simp only [Function.comp_apply, List.length_cons, Nat.add_assoc, Nat.add_comm 1]

end

mutual

theorem terms_subset_of_mem_visited : (n : Node) → ∀ a ∈ n.visited, a.2.terms ⊆ n.terms
  | .term t, a, ha => by
    rw [List.mem_singleton.mp ha]
    exact List.Subset.refl _
  | .anyOf ms, a, ha => by
    rcases List.mem_cons.mp ha with rfl | ha
    · exact List.Subset.refl _
    · exact terms_subset_of_mem_membersVisited 0 ms a ha

theorem terms_subset_of_mem_membersVisited (i : Nat) : (ms : List Node) →
    ∀ a ∈ membersVisited i ms, a.2.terms ⊆ membersTerms ms
  | [], a, ha => by cases ha
  | m :: ms, a, ha => by
    rw [membersTerms]
    rcases List.mem_append.mp ha with ha | ha
    · obtain ⟨b, hb, rfl⟩ := List.mem_map.mp ha
      exact List.subset_append_of_subset_left _ (terms_subset_of_mem_visited m b hb)
    · exact List.subset_append_of_subset_right _
        (terms_subset_of_mem_membersVisited (i + 1) ms a ha)

end

mutual

/-- The number of groups at or below a node. -/
def groupCount : Node → Nat
  | .term _ => 0
  | .anyOf ms => membersGroupCount ms + 1

def membersGroupCount : List Node → Nat
  | [] => 0
  | m :: ms => m.groupCount + membersGroupCount ms

end

mutual

theorem length_outline (depth : Nat) : (n : Node) →
    (n.outline depth).length = n.terms.length + n.groupCount
  | .term _ => rfl
  | .anyOf ms => by
    rw [outline, List.length_cons, length_membersOutline (depth + 1) ms, terms, groupCount,
      Nat.add_assoc]

theorem length_membersOutline (depth : Nat) : (ms : List Node) →
    (membersOutline depth ms).length = (membersTerms ms).length + membersGroupCount ms
  | [] => rfl
  | m :: ms => by
    rw [membersOutline, List.length_append, length_outline depth m, length_membersOutline depth ms,
      membersTerms, List.length_append, membersGroupCount]
    omega

end

/-- The level and the text that a line shows. -/
def readLine (l : List Char) : Nat × String :=
  ((l.takeWhile (· == ' ')).length / 2, String.ofList (l.dropWhile (· == ' ')))

theorem readLine_outlineLine {a : Nat × String} (h : ∀ c ∈ a.2.toList.head?, c ≠ ' ') :
    readLine (outlineLine a) = a := by
  obtain ⟨hblanks, htext⟩ := takeWhile_run (· == ' ') (List.replicate (2 * a.1) ' ') a.2.toList
    (by simp) (by simpa using h)
  rw [readLine, outlineLine, hblanks, htext, List.length_replicate, String.ofList_toList,
    Nat.mul_div_cancel_left _ (by decide)]

theorem lines_outline {os : List (Nat × String)} (h : ∀ a ∈ os, NoControl a.2.toList) :
    lines (os.flatMap fun a => outlineLine a ++ ['\n']) = os.map outlineLine := by
  induction os with
  | nil => rfl
  | cons a os ih =>
    obtain ⟨ha, hos⟩ := List.forall_mem_cons.mp h
    have hline : NoControl (outlineLine a) := by
      refine .append (fun c hc => ?_) ha
      rw [List.eq_of_mem_replicate hc]
      decide
    rw [List.flatMap_cons, List.append_assoc, List.map_cons, ← ih hos]
    refine lines_lineFeed hline.lineFeed (fun hlast => ?_) _
    exact hline.carriageReturn (List.mem_of_getLast? hlast)

end Node

namespace Query

def nodeAt? (q : Query) : List Nat → Option Node
  | [] => none
  | i :: place => q.items[i]?.bind (Node.nodeAt? · place)

def groupCount (q : Query) : Nat := Node.membersGroupCount q.items

/-- There is one line for each node of the query, in the order of their places. A node that is `n`
steps down stands `2 * n` blanks in. -/
structure HasLines (q : Query) (ls : List (List Char)) : Prop where
  nodes : ∃ nodes : List (List Nat × Node),
    nodes.Pairwise (·.1 < ·.1) ∧
      (∀ place n, (place, n) ∈ nodes ↔ q.nodeAt? place = some n) ∧
      List.Forall₂ (fun a l => (∃ c, a.2.entry.toList.head? = some c ∧ c ≠ ' ') ∧
        l = List.replicate (2 * a.1.length) ' ' ++ a.2.entry.toList) nodes ls
  length : ls.length = q.terms.length + q.groupCount

theorem mem_membersVisited_iff (q : Query) (place : List Nat) (n : Node) :
    (place, n) ∈ Node.membersVisited 0 q.items ↔ q.nodeAt? place = some n := by
  rw [Node.mem_membersVisited]
  cases place <;> simp [nodeAt?]

theorem namedTerms_of_mem {q : Query} (hq : NamedTerms q.terms) :
    ∀ a ∈ Node.membersVisited 0 q.items, NamedTerms a.2.terms :=
  fun a ha t ht => hq t (Node.terms_subset_of_mem_membersVisited 0 _ a ha ht)

theorem membersOutline_items (q : Query) :
    Node.membersOutline 1 q.items =
      (Node.membersVisited 0 q.items).map fun a => (a.1.length, a.2.entry) := by
  rw [← Node.map_membersVisited 0 0]
  simp only [Nat.zero_add]

theorem lines_treeMembers {q : Query} (hq : NamedTerms q.terms) :
    lines (Node.treeMembers false 1 q.items).toList =
      (Node.membersOutline 1 q.items).map Node.outlineLine := by
  rw [Node.toList_treeMembers, membersOutline_items]
  refine Node.lines_outline ?_
  simp only [List.forall_mem_map]
  exact fun a ha => Node.noControl_entry (namedTerms_of_mem hq a ha)

theorem hasLines_treeMembers {q : Query} (hq : NamedTerms q.terms) :
    q.HasLines (lines (Node.treeMembers false 1 q.items).toList) where
  nodes := by
    refine ⟨_, Node.pairwise_membersVisited 0 q.items, q.mem_membersVisited_iff, ?_⟩
    rw [lines_treeMembers hq, membersOutline_items, List.map_map, List.forall₂_map_right_iff,
      List.forall₂_same]
    exact fun a ha => ⟨Node.head?_entry (namedTerms_of_mem hq a ha), rfl⟩
  length := by
    rw [lines_treeMembers hq, List.length_map, Node.length_membersOutline]
    rfl

theorem map_readLine_treeMembers {q : Query} (hq : NamedTerms q.terms) :
    (lines (Node.treeMembers false 1 q.items).toList).map Node.readLine =
      Node.membersOutline 1 q.items := by
  rw [lines_treeMembers hq, membersOutline_items, List.map_map, List.map_map]
  refine List.map_congr_left fun a ha => Node.readLine_outlineLine fun c hc => ?_
  obtain ⟨d, hd, hne⟩ := Node.head?_entry (namedTerms_of_mem hq a ha)
  rwa [Option.some.inj (hc.symm.trans hd)]

theorem eq_of_treeMembers {q q' : Query} (hq : NamedTerms q.terms) (hq' : NamedTerms q'.terms)
    (h : Node.treeMembers false 1 q.items = Node.treeMembers false 1 q'.items) : q = q' := by
  have houtline : Node.membersOutline 1 q.items = Node.membersOutline 1 q'.items := by
    rw [← map_readLine_treeMembers hq, h, map_readLine_treeMembers hq']
  exact congrArg Query.mk (Node.membersOutline_inj hq hq' houtline)

theorem tree_of_items {q : Query} (h : q.isEmpty = false) :
    q.tree false = line ("✓ " ++ q.toText) ++ line "" ++ line "All of:" ++
      Node.treeMembers false 1 q.items ++ q.warningLines false := by
  rw [tree, h]
  rfl

/-- Below its heading, the tree of a query that was read has one line for each term and for each
group, two blanks further in on each level, whatever characters the values have. No other query
that was read has these lines. -/
theorem tree_tells_query :
    (∀ s q, parse s = .ok q → q.isEmpty = false →
      q.tree false = line ("✓ " ++ q.toText) ++ line "" ++ line "All of:" ++
        Node.treeMembers false 1 q.items ++ q.warningLines false ∧
      q.HasLines (lines (Node.treeMembers false 1 q.items).toList)) ∧
    ∀ s q s' q', parse s = .ok q → parse s' = .ok q' →
      Node.treeMembers false 1 q.items = Node.treeMembers false 1 q'.items → q = q' := by
  refine ⟨fun s q h hne => ⟨tree_of_items hne, ?_⟩, fun s q s' q' h h' => ?_⟩
  · exact hasLines_treeMembers (namedTerms_of_parse h)
  · exact eq_of_treeMembers (namedTerms_of_parse h) (namedTerms_of_parse h')

/-- A value of two lines, a group in a group, and one that is empty. -/
theorem tree_tells_query_nested :
    let s := "title:\"a\nb\" ((domain:x) ())"
    let s' := "(TITLE:\"a\nb\")"
    let q : Query := ⟨[.term ⟨"title", "a\nb"⟩, .anyOf [.anyOf [.term ⟨"domain", "x"⟩], .anyOf []]]⟩
    let q' : Query := ⟨[.anyOf [.term ⟨"title", "a\nb"⟩]]⟩
    parse s = .ok q ∧ q.isEmpty = false ∧ parse s' = .ok q' ∧
      lines (Node.treeMembers false 1 q.items).toList =
        ["  title = \"a\\nb\" (text)".toList, "  any of:".toList, "    any of:".toList,
          "      domain = \"x\" (attendees)".toList,
          "    any of: (empty, never matches)".toList] ∧
      q.HasLines (lines (Node.treeMembers false 1 q.items).toList) ∧
      Node.treeMembers false 1 q.items ≠ Node.treeMembers false 1 q'.items := by
  intro s s' q q'
  have hs : parse s = .ok q := by decide +kernel
  have hs' : parse s' = .ok q' := by decide +kernel
  have hne : q ≠ q' := by decide +kernel
  exact ⟨hs, rfl, hs', by decide +kernel, (tree_tells_query.1 s q hs rfl).2,
    fun h => hne (tree_tells_query.2 s q s' q' hs hs' h)⟩

end Query

end CalendarRules
