import CalendarRules.Proofs.Json.Page
import CalendarRules.Proofs.Query.Places
import CalendarRules.Proofs.Query.Unknown
import CalendarRules.View.Query

/-!
# What a check tells about unknown terms

The terms that a check calls unknown, and warns of, are those that no event satisfies whatever their
value is. There is one warning for each place where one stands, in the order of the places, on the
page as in the table.
-/

namespace CalendarRules

open Text Json

/-! ## What stands for a term -/

namespace Term

/-- The entry of a term among the terms of a page. -/
structure ToldBy (t : Term) (entry : Value) : Prop where
  property : entry.member? "property" = some (.text t.property)
  value : entry.member? "value" = some (.text t.value)
  known : ∃ known, entry.member? "known" = some (.bool known) ∧ (known = false ↔ t.IsUnknown)
  kind : ∀ v, entry.member? "kind" = some v ↔ ∃ p : Property, p.name = t.property ∧
    .text p.kind.name = v

def warning (t : Term) : Warning := ⟨t.property, Property.suggest? t.property⟩

structure WarnedBy (t : Term) (entry : Value) : Prop where
  property : entry.member? "property" = some (.text t.property)
  message : entry.member? "message" = some (.text t.warning.message)
  suggestion : entry.member? "suggestion" =
    (Property.suggest? t.property).map fun p => .text p.name

def warningLine (colours : Bool) (t : Term) : String :=
  line (Style.yellow.paint colours "warning:" ++ " " ++ t.warning.message)

theorem member?_summary (t : Term) :
    t.summary.member? "property" = some (.text t.property) ∧
      t.summary.member? "value" = some (.text t.value) ∧
      t.summary.member? "known" = some (.bool (Property.ofName? t.property).isSome) ∧
      t.summary.member? "kind" =
        (Property.ofName? t.property).map fun p => .text p.kind.name := by
  unfold summary
  cases Property.ofName? t.property <;> exact ⟨rfl, rfl, rfl, rfl⟩

theorem toldBy_summary (t : Term) : t.ToldBy t.summary := by
  obtain ⟨hproperty, hvalue, hknown, hkind⟩ := t.member?_summary
  refine ⟨hproperty, hvalue, ⟨_, hknown, ?_⟩, fun v => ?_⟩
  · rw [isUnknown_iff, Option.isSome_eq_false_iff, Option.isNone_iff_eq_none]
  · simp only [hkind, Option.map_eq_some_iff, Property.ofName?_eq_some_iff]

theorem warnedBy_summary (t : Term) : t.WarnedBy t.warning.summary := by
  constructor <;> unfold Warning.summary warning <;> cases Property.suggest? t.property <;> rfl

end Term

namespace Query

variable (q : Query)

structure Shows (page : Value) : Prop where
  valid : page.member? "valid" = some (.bool true)
  query : page.member? "query" = some (.text q.toText)
  terms : ∃ entries, page.member? "terms" = some (.list entries) ∧
    List.Forall₂ Term.ToldBy q.terms entries
  warnings : ∃ entries, page.member? "warnings" = some (.list entries) ∧
    q.Lists Term.IsUnknown Term.WarnedBy entries

theorem unknownTerms_eq_filter : q.unknownTerms = q.terms.filter fun t => t.IsUnknown := by
  refine List.filter_congr fun t _ => ?_
  rw [Bool.eq_iff_iff, Option.isNone_iff_eq_none, decide_eq_true_eq, Term.isUnknown_iff]

theorem warnings_eq_map : q.warnings = (q.terms.filter fun t => t.IsUnknown).map Term.warning := by
  rw [warnings, unknownTerms_eq_filter]
  rfl

theorem lists_terms : q.Lists (fun _ => True) (· = ·) q.terms := by
  simpa using q.lists_map (P := fun _ => True) (f := id) fun t _ => rfl

theorem shows_summary : q.Shows q.summary where
  valid := rfl
  query := rfl
  terms := by
    refine ⟨_, rfl, ?_⟩
    rw [List.forall₂_map_right_iff]
    exact List.forall₂_same.mpr fun t _ => t.toldBy_summary
  warnings := by
    refine ⟨_, rfl, ?_⟩
    rw [warnings_eq_map, List.map_map]
    exact lists_map fun t _ => t.warnedBy_summary

/-! ## Reading the page -/

theorem prints_term (t : Term) : t.summary.Prints 1 := by
  refine .object ?_
  simp only [List.forall_mem_append, List.forall_mem_cons]
  exact ⟨⟨.text _, .text _, .bool _, by simp⟩, forall_mem_optionalMember fun _ => .text _⟩

theorem prints_warning (w : Warning) : w.summary.Prints 1 := by
  refine .object ?_
  simp only [List.forall_mem_append, List.forall_mem_cons]
  exact ⟨⟨.text _, .text _, by simp⟩, forall_mem_optionalMember fun _ => .text _⟩

theorem prints_summary : q.summary.Prints 3 := by
  refine .object ?_
  simp only [List.forall_mem_cons]
  refine ⟨.bool _, .text _, .list ?_, .list ?_, by simp⟩
  · simp only [List.forall_mem_map]
    exact fun t _ => prints_term t
  · simp only [List.forall_mem_map]
    exact fun w _ => prints_warning w

/-! ## The table -/

/-- The table of a query up to where its warnings begin. -/
def treeBody (colours : Bool) : String :=
  if q.isEmpty then line "Empty query (matches no events)."
  else
    line (Style.green.paint colours "✓" ++ " " ++ Style.bold.paint colours q.toText) ++
      line "" ++ line "All of:" ++ Node.treeMembers colours 1 q.items

theorem warningLines_eq (colours : Bool) :
    let lines := (q.terms.filter fun t => t.IsUnknown).map (Term.warningLine colours)
    q.warningLines colours = if lines = [] then "" else line "" ++ String.join lines := by
  intro lines
  have hlines : lines = q.warnings.map fun w =>
      line (Style.yellow.paint colours "warning:" ++ " " ++ w.message) := by
    rw [warnings_eq_map, List.map_map]
    rfl
  rw [warningLines, hlines]
  simp only [List.isEmpty_iff, List.map_eq_nil_iff]

theorem tree_eq (colours : Bool) :
    q.tree colours = q.treeBody colours ++ q.warningLines colours := by
  rw [tree, treeBody]
  split
  case isTrue h =>
    have hterms : q.terms = [] := by rw [terms, List.isEmpty_iff.mp h, Node.membersTerms]
    have hwarnings : q.warnings = [] := by rw [warnings, unknownTerms, hterms]; rfl
    rw [warningLines, hwarnings]
    simp
  case isFalse h => rfl

/-- Unknown terms are those that no value makes match. Leaving them out of the groups, or asking
them for another value, changes nothing, and an item with no other terms rules out every event. A
check calls these terms unknown, and warns of each of them once, in the order of their places. -/
theorem unknown_terms_dead :
    (∀ t : Term, t.IsUnknown ↔ ∀ value e, (⟨t.property, value⟩ : Term).holds e = false) ∧
      (∀ ms, (Node.anyOf ms).prune.terms = (Node.anyOf ms).terms.filter fun t => ¬ t.IsUnknown) ∧
      (∀ e, q.prune.holds e = q.holds e) ∧
      (∀ n ∈ q.items, (∀ t ∈ n.terms, t.IsUnknown) → ∀ e, q.holds e = false) ∧
      (∀ q' : Query, Node.Rewords q.items q'.items → ∀ e, q.holds e = q'.holds e) ∧
      q.Lists (fun _ => True) (· = ·) q.terms ∧
      q.Shows q.summary ∧ Value.ofString? q.summary.page = some q.summary ∧
      ∀ colours, ∃ lines, q.Lists Term.IsUnknown (fun t s => s = t.warningLine colours) lines ∧
        q.tree colours =
          q.treeBody colours ++ if lines = [] then "" else line "" ++ String.join lines := by
  refine ⟨fun t => t.isUnknown_iff_never, Node.membersTerms_pruneMembers, q.holds_prune,
    fun n hn h => holds_of_unknown_item hn h,
    fun q' h e => holds_eq_of_map (Node.map_holds_of_rewords h e), q.lists_terms, q.shows_summary,
    Value.ofString?_page (q.prints_summary.mono (by decide)), fun colours => ?_⟩
  refine ⟨_, lists_map (f := Term.warningLine colours) fun t _ => rfl, ?_⟩
  rw [tree_eq, warningLines_eq]

/-- A slip in a group and another in a group of it, which has no other terms. -/
theorem unknown_terms_dead_slips :
    let e : Event := { title := some "Weekly Sync" }
    let sync : Node := .term ⟨"title", "sync"⟩
    let slip (value : String) : Node := .anyOf [.term ⟨"domian", value⟩]
    let q : Query := ⟨[sync, .anyOf [slip "acme.com", sync, .term ⟨"titel", "call"⟩]]⟩
    let q' : Query := ⟨[sync, .anyOf [slip "", sync, .term ⟨"titel", "call"⟩]]⟩
    let dead : Query := ⟨[sync, slip "acme.com"]⟩
    q.holds e = true ∧ q.prune = ⟨[sync, .anyOf [.anyOf [], sync]]⟩ ∧
      q.prune.holds e = q.holds e ∧ Node.Rewords q.items q'.items ∧ q.holds e = q'.holds e ∧
      slip "acme.com" ∈ dead.items ∧ (∀ t ∈ (slip "acme.com").terms, t.IsUnknown) ∧
      dead.holds e = false := by
  intro e sync slip q q' dead
  have hslip : Term.IsUnknown ⟨"domian", "acme.com"⟩ := Term.isUnknown_iff.mpr (by decide)
  have hreword : Node.Rewords q.items q'.items :=
    .inside (.inside (.here hslip "" [] []) [] [sync, .term ⟨"titel", "call"⟩]) [sync] []
  have hmem : slip "acme.com" ∈ dead.items := by simp [dead]
  have hall : ∀ t ∈ (slip "acme.com").terms, t.IsUnknown := by
    simpa [slip, Node.terms, Node.membersTerms] using hslip
  obtain ⟨-, -, hprune, -, hsame, -⟩ := q.unknown_terms_dead
  obtain ⟨-, -, -, hdead, -⟩ := dead.unknown_terms_dead
  exact ⟨by decide +kernel, by decide +kernel, hprune e, hreword, hsame q' hreword e, hmem, hall,
    hdead _ hmem hall e⟩

end Query

end CalendarRules
