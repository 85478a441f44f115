import CalendarRules.Proofs.Query.Catalog
import CalendarRules.Proofs.Rule.Accounting

/-!
# Fingerprints written out as rules

The query of a fingerprint can be stored as the text of a rule. Behind all other rules of the book
such rules do what the fingerprints do, whatever characters stand in their values.
-/

namespace CalendarRules

open Text

/-! ## Rules behind all others -/

/-- The lowest priority that a rule can have. -/
def Rule.lowestPriority : Int := -2147483648

theorem RuleBook.ordered_append {rules added : List Rule} (fs fs' : List Fingerprint)
    {priority order : Int} (hrules : ∀ r ∈ rules, priority < r.priority)
    (hadded : ∀ r ∈ added, r.enabled = true ∧ r.priority = priority ∧ r.displayOrder = order) :
    ordered ⟨rules ++ added, fs'⟩ = ordered ⟨rules, fs⟩ ++ added := by
  obtain ⟨sorted, hperm, hsorted, hordered⟩ := exists_ordered ⟨rules, fs⟩
  have hsplit : (rules ++ added).zipIdx.filter (·.1.enabled) =
      rules.zipIdx.filter (·.1.enabled) ++ added.zipIdx rules.length := by
    rw [List.zipIdx_append, List.filter_append, Nat.zero_add, List.append_cancel_left_eq,
      List.filter_eq_self]
    exact fun x hx => (hadded x.1 (List.fst_mem_of_mem_zipIdx hx)).1
  have hplaced := pairwise_zipIdx (rules ++ added)
  -- Among themselves the added rules differ in their places only.
  have hlast : (added.zipIdx rules.length).Pairwise Rule.Before := by
    rw [List.zipIdx_append, Nat.zero_add, List.pairwise_append] at hplaced
    refine hplaced.2.1.imp_of_mem fun {x y} hx hy hxy => ?_
    obtain ⟨-, hxp, hxo⟩ := hadded x.1 (List.fst_mem_of_mem_zipIdx hx)
    obtain ⟨-, hyp, hyo⟩ := hadded y.1 (List.fst_mem_of_mem_zipIdx hy)
    exact .inr ⟨hxp.trans hyp.symm, .inr ⟨hxo.trans hyo.symm, hxy⟩⟩
  have hall : (sorted ++ added.zipIdx rules.length).Pairwise Rule.Before := by
    refine List.pairwise_append.mpr ⟨hsorted, hlast, fun x hx y hy => .inl ?_⟩
    rw [(hadded y.1 (List.fst_mem_of_mem_zipIdx hy)).2.1]
    have hx := (List.mem_filter.mp (hperm.mem_iff.mp hx)).1
    exact hrules x.1 (List.fst_mem_of_mem_zipIdx hx)
  rw [ordered_eq, hsplit, Rule.mergeSort_of_before (hsplit ▸ hplaced.filter _)
    (hperm.append_right _) hall, List.map_append, hordered]
  congr 1
  exact List.zipIdx_map_fst _ _

/-! ## A fingerprint as a rule -/

namespace Fingerprint

/-- The rule has the query of the fingerprint for its text and gives an event to its project. It is
enabled and has the lowest priority. -/
structure IsWrittenOut (f : Fingerprint) (r : Rule) : Prop where
  query : f.toQuery?.map Query.toText = some r.query
  target : r.target = .project f.projectId
  priority : r.priority = Rule.lowestPriority
  displayOrder : r.displayOrder = 0
  enabled : r.enabled = true

variable {f : Fingerprint} {r : Rule} {q : Query}

theorem exists_of_mem_members {n : Node} (h : n ∈ f.members) :
    ∃ (p : Property) (value : String), n = .term (Term.of p.name value) := by
  have hterms (p : Property) (values : List String) (h : n ∈ termsFor p.name values) :
      ∃ value, n = .term (Term.of p.name value) := by
    obtain ⟨value, -, rfl⟩ := List.mem_map.mp h
    exact ⟨value, rfl⟩
  rcases List.mem_append.mp h with h | h
  · rcases List.mem_append.mp h with h | h
    · exact ⟨.domain, hterms .domain f.domains h⟩
    · exact ⟨.email, hterms .email f.emails h⟩
  · exact ⟨.title, hterms .title f.keywords h⟩

theorem parse_toText_of_toQuery? (h : f.toQuery? = some q) :
    Query.parse q.toText = .ok q ∧ q.isEmpty = false := by
  unfold toQuery? at h
  split at h
  · cases h
  · cases h
    refine ⟨Query.parse_toText ?_, rfl⟩
    rw [Query.terms, Node.membersTerms, Node.membersTerms, Node.terms, List.append_nil]
    refine Query.namedTerms_membersTerms fun n hn => ?_
    obtain ⟨p, value, rfl⟩ := exists_of_mem_members hn
    exact (Query.namedTerms_singleton _).mpr p.lowerName_lower_name

theorem IsWrittenOut.exists_query (h : f.IsWrittenOut r) :
    ∃ q, f.toQuery? = some q ∧ r.compile = .ok ⟨q, r.result⟩ := by
  obtain ⟨q, hq, htext⟩ := Option.map_eq_some_iff.mp h.query
  obtain ⟨hparse, hempty⟩ := parse_toText_of_toQuery? hq
  refine ⟨q, hq, ?_⟩
  rw [Rule.compile, ← htext, hparse]
  simp [hempty, Rule.result]

end Fingerprint

/-! ## The same queries in the same order -/

/-- Both ask the same query for the same target. -/
def CompiledRule.Agrees (c c' : CompiledRule) : Prop :=
  c.query = c'.query ∧ c.result.target = c'.result.target

theorem target_of_agrees {cs cs' : List CompiledRule}
    (h : List.Forall₂ CompiledRule.Agrees cs cs') (e : Event) :
    (cs.find? (·.query.holds e)).map (·.result.target) =
      (cs'.find? (·.query.holds e)).map (·.result.target) := by
  induction h with
  | nil => rfl
  | @cons c c' cs cs' hc hcs ih =>
    rw [List.find?_cons, List.find?_cons, ← hc.1]
    cases c.query.holds e with
    | true => exact congrArg some hc.2
    | false => exact ih

theorem agrees_of_writtenOut {fs : List Fingerprint} {added : List Rule}
    (h : List.Forall₂ Fingerprint.IsWrittenOut (fs.filter (·.toQuery?.isSome)) added) :
    List.Forall₂ CompiledRule.Agrees (added.filterMap Rule.compiled?)
      (fs.filterMap Fingerprint.compiled?) := by
  have hkept : fs.filterMap Fingerprint.compiled? =
      (fs.filter (·.toQuery?.isSome)).filterMap Fingerprint.compiled? := by
    rw [List.filterMap_filter]
    refine List.filterMap_congr fun f _ => ?_
    unfold Fingerprint.compiled?
    cases f.toQuery? <;> rfl
  rw [hkept]
  generalize fs.filter (·.toQuery?.isSome) = kept at h
  induction h with
  | nil => exact .nil
  | @cons f r kept added hf hkept ih =>
    obtain ⟨q, hq, hcompile⟩ := hf.exists_query
    have hr : r.compiled? = some ⟨q, r.result⟩ := by rw [Rule.compiled?, hcompile]
    have hf' : f.compiled? = some ⟨q, f.result⟩ := by rw [Fingerprint.compiled?, hq]; rfl
    rw [List.filterMap_cons_some hr, List.filterMap_cons_some hf']
    exact .cons ⟨rfl, hf.target⟩ ih

theorem forall_written {p : Rule → Prop} {kept : List Fingerprint} {added : List Rule}
    (hp : ∀ (f : Fingerprint) (r : Rule), f.IsWrittenOut r → p r)
    (h : List.Forall₂ Fingerprint.IsWrittenOut kept added) : ∀ r ∈ added, p r := by
  have hboth : List.Forall₂ (fun r f => p r ∧ f.IsWrittenOut r) added kept :=
    h.flip.imp fun r f hf => ⟨hp f r hf, hf⟩
  exact ((List.forall₂_and_left ..).mp hboth).1

theorem origin_of_fingerprints {fs : List Fingerprint} {e : Event} {m : Match}
    (h : ((fs.filterMap Fingerprint.compiled?).find? (·.query.holds e)).map (·.result) = some m) :
    m.origin = .fingerprint := by
  rw [find?_compiled Fingerprint.result_of_compiled?] at h
  obtain ⟨f, -, rfl⟩ := Option.map_eq_some_iff.mp h
  rfl

/-! ## The theorem -/

namespace Classifier

theorem classify_of_rules_append {c d : Classifier} {more : List CompiledRule}
    (h : c.rules = d.rules ++ more) (e : Event) :
    c.classify e = (d.classify e).or ((more.find? (·.query.holds e)).map (·.result)) := by
  rw [classify, h, List.find?_append, Option.map_or]
  rfl

theorem rules_ofBook (rules : List Rule) (fs : List Fingerprint) :
    (ofBook ⟨rules, fs⟩).rules =
      (ofBook ⟨rules, []⟩).rules ++ fs.filterMap Fingerprint.compiled? := by
  simp [ofBook, RuleBook.ordered]

variable {rules added : List Rule} {fs : List Fingerprint}

theorem rules_writtenOut (hrules : ∀ r ∈ rules, Rule.lowestPriority < r.priority)
    (hadded : ∀ r ∈ added,
      r.enabled = true ∧ r.priority = Rule.lowestPriority ∧ r.displayOrder = 0) :
    (ofBook ⟨rules ++ added, []⟩).rules =
      (ofBook ⟨rules, []⟩).rules ++ added.filterMap Rule.compiled? := by
  simp [ofBook, RuleBook.ordered_append [] [] hrules hadded]

/-- Rules that write out the fingerprints of a book take their place: none of them is skipped, and
every event goes to the same target. When a rule of the book applies, it wins as before. -/
theorem classify_writtenOut (hrules : ∀ r ∈ rules, Rule.lowestPriority < r.priority)
    (hadded : List.Forall₂ Fingerprint.IsWrittenOut (fs.filter (·.toQuery?.isSome)) added) :
    ((∀ r ∈ added, r.skipped? = none) ∧
        (ofBook ⟨rules ++ added, []⟩).skipped = (ofBook ⟨rules, fs⟩).skipped) ∧
      ∀ e,
        ((ofBook ⟨rules ++ added, []⟩).classify e).map (·.target) =
            ((ofBook ⟨rules, fs⟩).classify e).map (·.target) ∧
          (∀ m, (ofBook ⟨rules, []⟩).classify e = some m →
            (ofBook ⟨rules, fs⟩).classify e = some m ∧
              (ofBook ⟨rules ++ added, []⟩).classify e = some m) ∧
          ∀ m, (ofBook ⟨rules, fs⟩).classify e = some m → m.origin = .rule →
            (ofBook ⟨rules ++ added, []⟩).classify e = some m := by
  have hkeys : ∀ r ∈ added,
      r.enabled = true ∧ r.priority = Rule.lowestPriority ∧ r.displayOrder = 0 :=
    forall_written (fun f r hf => ⟨hf.enabled, hf.priority, hf.displayOrder⟩) hadded
  have hused : ∀ r ∈ added, r.skipped? = none := by
    refine forall_written (fun f r hf => ?_) hadded
    obtain ⟨q, -, hcompile⟩ := hf.exists_query
    rw [Rule.skipped?, hcompile]
  refine ⟨⟨hused, ?_⟩, ?_⟩
  · simp only [ofBook, RuleBook.ordered_append fs [] hrules hkeys, List.filterMap_append]
    rw [List.filterMap_eq_nil_iff.mpr hused, List.append_nil]
  · intro e
    have hbook := classify_of_rules_append (rules_ofBook rules fs) e
    have hout := classify_of_rules_append (rules_writtenOut hrules hkeys) e
    have hsame := target_of_agrees (agrees_of_writtenOut hadded) e
    refine ⟨?_, ?_, ?_⟩
    · rw [hbook, hout, Option.map_or, Option.map_or, Option.map_map, Option.map_map]
      exact congrArg _ hsame
    · intro m hm
      rw [hbook, hout, hm]
      exact ⟨rfl, rfl⟩
    · intro m hm horigin
      cases hexplicit : (ofBook ⟨rules, []⟩).classify e with
      | some m' =>
        rw [hbook, hexplicit] at hm
        rw [hout, hexplicit]
        exact hm
      | none =>
        rw [hbook, hexplicit, Option.none_or] at hm
        rw [origin_of_fingerprints hm] at horigin
        cases horigin

/-- A keyword with quotes and parentheses, beside a blank fingerprint that is left out. -/
theorem classify_writtenOut_quoted :
    let rules : List Rule :=
      [{ id := "dna", query := "response:declined", target := .didNotAttend }]
    let fs : List Fingerprint :=
      [{ projectId := "blank", domains := [" "] },
        { projectId := "acme", domains := ["acme.com"], keywords := ["say \"hi\" (now)"] }]
    let added : List Rule :=
      [{ id := "w", query := "(domain:acme.com OR title:\"say \\\"hi\\\" (now)\")"
         target := .project "acme", priority := -2147483648 }]
    (∀ r ∈ rules, Rule.lowestPriority < r.priority) ∧
      List.Forall₂ Fingerprint.IsWrittenOut (fs.filter (·.toQuery?.isSome)) added ∧
        ∀ e, ((ofBook ⟨rules ++ added, []⟩).classify e).map (·.target) =
          ((ofBook ⟨rules, fs⟩).classify e).map (·.target) := by
  intro rules fs added
  have hrules : ∀ r ∈ rules, Rule.lowestPriority < r.priority := by
    simp [rules, Rule.lowestPriority]
  have hkept : fs.filter (·.toQuery?.isSome) =
      [{ projectId := "acme", domains := ["acme.com"], keywords := ["say \"hi\" (now)"] }] := by
    decide +kernel
  have hadded : List.Forall₂ Fingerprint.IsWrittenOut (fs.filter (·.toQuery?.isSome)) added := by
    rw [hkept]
    exact .cons ⟨by decide +kernel, rfl, rfl, rfl, rfl⟩ .nil
  exact ⟨hrules, hadded, fun e => ((classify_writtenOut hrules hadded).2 e).1⟩

end Classifier

end CalendarRules
