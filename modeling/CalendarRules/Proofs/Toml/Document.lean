import CalendarRules.Proofs.Text.Runs
import CalendarRules.Proofs.Toml.Number
import CalendarRules.Proofs.Toml.Text
import Mathlib.Data.List.Forall2
import Mathlib.Data.Nat.Init

/-!
# A document that is written is read back

The documents are those of bare names, and of texts, whole numbers, flags and lists of texts.
-/

namespace CalendarRules.Toml

open Decimal

/-! ## Plain documents -/

/-- The name needs no quotes. -/
structure BareName (name : String) : Prop where
  ne_nil : name.toList ≠ []
  bare : ∀ c ∈ name.toList, isBare c = true

instance (name : String) : Decidable (BareName name) :=
  decidable_of_iff (name.toList ≠ [] ∧ name.toList.all isBare = true)
    ⟨fun h => ⟨h.1, List.all_eq_true.mp h.2⟩, fun h => ⟨h.ne_nil, List.all_eq_true.mpr h.bare⟩⟩

inductive PlainValue : Value → Prop
  | text (s : String) : PlainValue (.text s)
  | whole {n : Int} (h : fitsWhole n = true) : PlainValue (.whole n)
  | bool (b : Bool) : PlainValue (.bool b)
  | texts (ss : List String) : PlainValue (.list (ss.map .text))

structure PlainEntry (e : Entry) : Prop where
  key : ∃ name, e.key = .ofName name ∧ BareName name
  value : PlainValue e.value

structure PlainSection (s : Section) : Prop where
  key : ∃ name, s.header.key = .ofName name ∧ BareName name
  entries : ∀ e ∈ s.entries, PlainEntry e

structure PlainDocument (d : Document) : Prop where
  entries : ∀ e ∈ d.entries, PlainEntry e
  sections : ∀ s ∈ d.sections, PlainSection s

theorem PlainValue.isWritable {v : Value} (h : PlainValue v) : v.isWritable = true := by
  cases h with
  | whole hn => exact hn
  | text | bool | texts => rfl

theorem PlainDocument.isWritable {d : Document} (h : PlainDocument d) : d.isWritable = true := by
  unfold Document.isWritable
  simp only [List.all_append, List.all_flatMap, Bool.and_eq_true, List.all_eq_true]
  exact ⟨fun e he => (h.entries e he).value.isWritable,
    fun s hs e he => ((h.sections s hs).entries e he).value.isWritable⟩

/-! ## Names -/

section Names

variable {name : String} {rest : List Char}

theorem BareName.exists_cons (h : BareName name) :
    ∃ c cs, name.toList = c :: cs ∧ isBare c = true := by
  obtain ⟨c, cs, hcs⟩ := List.exists_cons_of_ne_nil h.ne_nil
  exact ⟨c, cs, hcs, h.bare c (hcs ▸ List.mem_cons_self)⟩

theorem writeName_of_bare (h : BareName name) : writeName name = name.toList := by
  have hall : name.toList.all isBare = true := List.all_eq_true.mpr h.bare
  simp [writeName, h.ne_nil, hall]

theorem skipBlanks_cons {c : Char} (hc : isBlank c = false) (cs : List Char) :
    skipBlanks (c :: cs) = c :: cs := by
  simp [skipBlanks, hc]

theorem ne_of_isBare {c d : Char} (hc : isBare c = true) (hd : isBare d = false) : c ≠ d := by
  rintro rfl
  rw [hc] at hd
  cases hd

theorem isBlank_of_isBare {c : Char} (hc : isBare c = true) : isBlank c = false := by
  simp [isBlank, ne_of_isBare hc (d := ' ') rfl, ne_of_isBare hc (d := '\t') rfl]

theorem readName?_of_bare (h : BareName name) (hrest : ∀ c ∈ rest.head?, isBare c = false) :
    readName? (name.toList ++ rest) = some (name, rest) := by
  obtain ⟨c, cs, hcs, hc⟩ := h.exists_cons
  obtain ⟨htake, hdrop⟩ := Text.takeWhile_run isBare name.toList rest h.bare hrest
  have hquoted : readQuoted? (name.toList ++ rest) = none := by
    rw [hcs, List.cons_append]
    exact readQuoted?.eq_3 _ (by rintro _ ⟨⟩; cases hc) (by rintro _ ⟨⟩; cases hc)
  rw [readName?, hquoted, htake, hdrop]
  cases hname : name.toList with
  | nil => exact absurd hname h.ne_nil
  | cons d ds => simp [← hname]

/-- A mark that ends a key, perhaps after a blank. -/
structure EndsKey (mark : Char) : Prop where
  blank : isBlank mark = false
  bare : isBare mark = false
  dot : mark ≠ '.'

theorem readKey?_of_bare (h : BareName name) {gap : List Char} {mark : Char}
    (hgap : ∀ c ∈ gap, c = ' ') (hmark : EndsKey mark) (room : Nat) (rest : List Char) :
    readKey? (room + 1) (name.toList ++ (gap ++ mark :: rest)) =
      some (.ofName name, mark :: rest) := by
  obtain ⟨c, cs, hcs, hc⟩ := h.exists_cons
  have hstart : skipBlanks (name.toList ++ (gap ++ mark :: rest)) =
      name.toList ++ (gap ++ mark :: rest) := by
    rw [hcs, List.cons_append, skipBlanks_cons (isBlank_of_isBare hc)]
  have hend : skipBlanks (gap ++ mark :: rest) = mark :: rest := by
    refine (Text.takeWhile_run isBlank gap (mark :: rest) ?_ ?_).2
    · intro c hc
      rw [hgap c hc]
      rfl
    · rintro c ⟨⟩
      exact hmark.blank
  have hname : readName? (name.toList ++ (gap ++ mark :: rest)) =
      some (name, gap ++ mark :: rest) := by
    refine readName?_of_bare h ?_
    cases gap with
    | nil => rintro d ⟨⟩; exact hmark.bare
    | cons d gap => rintro _ ⟨⟩; rw [hgap d List.mem_cons_self]; rfl
  rw [readKey?, hstart, hname]
  simp only [Option.bind_eq_bind, Option.bind_some, hend]
  split
  · rename_i hdot
    injection hdot with hdot
    exact absurd hdot hmark.dot
  · rfl

end Names

/-! ## Values -/

section Values

variable {rest : List Char}

theorem writeText_eq_cons (cs : List Char) :
    ∃ q tail, writeText cs = q :: tail ∧ (q = '"' ∨ q = '\'') := by
  unfold writeText
  cases Form.forText cs with
  | basic | basicLines => exact ⟨_, _, rfl, .inl rfl⟩
  | literal | literalLines => exact ⟨_, _, rfl, .inr rfl⟩

theorem readScalar?_text (s : String) (hbasic : rest.head? ≠ some '"')
    (hliteral : rest.head? ≠ some '\'') :
    readScalar? (writeText s.toList ++ rest) = some (.text s, rest) := by
  have hread := readText?_writeText s.toList hbasic hliteral
  obtain ⟨q, tail, hq, hquote⟩ := writeText_eq_cons s.toList
  rw [hq, List.cons_append] at hread ⊢
  have ht : q ≠ 't' := by rcases hquote with rfl | rfl <;> decide
  have hf : q ≠ 'f' := by rcases hquote with rfl | rfl <;> decide
  rw [readScalar?.eq_3 _ (by simp [ht]) (by simp [hf]), hread]
  simp

theorem readText?_of_no_quote {c : Char} (hbasic : c ≠ '"') (hliteral : c ≠ '\'') (cs : List Char) :
    readText? (c :: cs) = none := by
  rw [readText?.eq_3 _ (by simp [hbasic]) (by simp [hliteral]),
    readQuoted?.eq_3 _ (by simp [hbasic]) (by simp [hliteral])]

theorem readScalar?_whole {n : Int} (hn : fitsWhole n = true) :
    readScalar? ((toString n).toList ++ '\n' :: rest) = some (.whole n, '\n' :: rest) := by
  have hread := readNumber?_toString n rest hn
  obtain ⟨c, cs, hcs, hc⟩ := toString_eq_cons n
  have hne : ∀ d : Char, d.isDigit = false → d ≠ '-' → c ≠ d := by
    rintro d hdigit hminus rfl
    rcases hc with hc | hc
    · rw [hc] at hdigit
      cases hdigit
    · exact hminus hc
  rw [hcs, List.cons_append] at hread ⊢
  rw [readScalar?.eq_3 _ (by simp [hne 't' rfl (by decide)]) (by simp [hne 'f' rfl (by decide)]),
    readText?_of_no_quote (hne '"' rfl (by decide)) (hne '\'' rfl (by decide)), hread]

/-! ### Lists of texts -/

theorem skipGaps?_cons {c : Char} (hblank : isBlank c = false) (hbreak : c ≠ '\n')
    (hreturn : c ≠ '\r') (hmark : c ≠ '#') (cs : List Char) :
    skipGaps? false (c :: cs) = some (c :: cs) := by
  rw [skipGaps?.eq_4 _ _ _ (by simp [hbreak]) (by simp [hreturn])]
  simp [hblank, hmark]

theorem skipGaps?_quote {q : Char} (hq : q = '"' ∨ q = '\'') (cs : List Char) :
    skipGaps? false (q :: cs) = some (q :: cs) := by
  rcases hq with rfl | rfl <;> exact skipGaps?_cons rfl (by decide) (by decide) (by decide) cs

theorem skipGaps?_itemIndent (cs : List Char) :
    skipGaps? false (itemIndent ++ cs) = skipGaps? false cs := rfl

theorem readValue?_quote {q : Char} (hq : q = '"' ∨ q = '\'') (room : Nat) (cs : List Char) :
    readValue? room (q :: cs) = readScalar? (q :: cs) := by
  cases room with
  | zero => rfl
  | succ room => rcases hq with rfl | rfl <;> rfl

theorem readValue?_text (s : String) (room : Nat) (hbasic : rest.head? ≠ some '"')
    (hliteral : rest.head? ≠ some '\'') :
    readValue? room (writeText s.toList ++ rest) = some (.text s, rest) := by
  rw [← readScalar?_text s hbasic hliteral]
  obtain ⟨q, tail, hq, hquote⟩ := writeText_eq_cons s.toList
  rw [hq, List.cons_append, readValue?_quote hquote]

theorem skipGaps?_text (s : String) :
    skipGaps? false (writeText s.toList ++ rest) = some (writeText s.toList ++ rest) := by
  obtain ⟨q, tail, hq, hquote⟩ := writeText_eq_cons s.toList
  rw [hq, List.cons_append, skipGaps?_quote hquote]

theorem writeItems_texts_cons (s : String) (ss : List String) :
    writeItems ((s :: ss).map .text) =
      itemIndent ++ (writeText s.toList ++ ',' :: writeItems (ss.map .text)) := by
  simp [writeItems, Value.write]

theorem readItems?_congr {one : ValueReader} {cs cs' : List Char} (fuel : Nat)
    (h : skipGaps? false cs = skipGaps? false cs') :
    readItems? one (fuel + 1) cs = readItems? one (fuel + 1) cs' := by
  simp only [readItems?, h]

theorem readItems?_text (s : String) (room fuel : Nat) {mark : Char}
    (hmark : mark = ',' ∨ mark = ']') :
    readItems? (readValue? room) (fuel + 1) (writeText s.toList ++ mark :: rest) =
      match mark with
      | ',' => (readItems? (readValue? room) fuel rest).map fun (vs, cs) => (.text s :: vs, cs)
      | _ => some ([.text s], rest) := by
  have hvalue : readValue? room (writeText s.toList ++ mark :: rest) =
      some (.text s, mark :: rest) := by
    rcases hmark with rfl | rfl <;> exact readValue?_text s room (by simp) (by simp)
  have hgap : skipGaps? false (mark :: rest) = some (mark :: rest) := by
    rcases hmark with rfl | rfl <;>
      exact skipGaps?_cons rfl (by decide) (by decide) (by decide) rest
  simp only [readItems?, skipGaps?_text, Option.bind_eq_bind, Option.bind_some]
  split
  · rename_i hbracket
    obtain ⟨q, tail, hq, hquote⟩ := writeText_eq_cons s.toList
    rw [hq, List.cons_append] at hbracket
    rcases hquote with rfl | rfl <;> cases hbracket
  · simp only [hvalue, hgap, Option.bind_some]
    rcases hmark with rfl | rfl
    · simp only
      cases readItems? (readValue? room) fuel rest <;> rfl
    · rfl

theorem readItems?_texts (ss : List String) (room fuel : Nat) (hfuel : ss.length < fuel) :
    readItems? (readValue? room) fuel (writeItems (ss.map .text) ++ '\n' :: ']' :: rest) =
      some (ss.map .text, rest) := by
  induction ss generalizing fuel with
  | nil =>
    obtain ⟨fuel, rfl⟩ := Nat.exists_eq_succ_of_ne_zero (Nat.ne_of_gt hfuel)
    rfl
  | cons s ss ih =>
    obtain ⟨fuel, rfl⟩ := Nat.exists_eq_succ_of_ne_zero (Nat.ne_of_gt (Nat.zero_lt_of_lt hfuel))
    have hrest := ih fuel (by simpa using hfuel)
    have hindent : skipGaps? false (writeItems ((s :: ss).map .text) ++ '\n' :: ']' :: rest) =
        skipGaps? false
          (writeText s.toList ++ ',' :: (writeItems (ss.map .text) ++ '\n' :: ']' :: rest)) := by
      rw [writeItems_texts_cons, List.append_assoc, List.append_assoc, List.cons_append,
        skipGaps?_itemIndent]
    rw [readItems?_congr fuel hindent, readItems?_text s room fuel (.inl rfl), hrest]
    rfl

theorem length_le_writeItems (vs : List Value) : vs.length ≤ (writeItems vs).length := by
  induction vs with
  | nil => exact Nat.le_refl 0
  | cons v vs ih =>
    rw [writeItems, List.length_append, List.length_append, List.length_cons, List.length_cons]
    omega

theorem readValue?_texts (ss : List String) (room : Nat) :
    readValue? (room + 1) ((Value.list (ss.map .text)).write ++ '\n' :: rest) =
      some (.list (ss.map .text), '\n' :: rest) := by
  cases ss with
  | nil => rfl
  | cons s ss =>
    cases ss with
    | nil =>
      have hwrite : (Value.list [.text s]).write ++ '\n' :: rest =
          '[' :: (writeText s.toList ++ ']' :: '\n' :: rest) := by
        simp [Value.write]
      rw [List.map_singleton, hwrite, readValue?, readItems?_text s room _ (.inr rfl)]
      rfl
    | cons t ss =>
      have hwrite : (Value.list ((s :: t :: ss).map .text)).write ++ '\n' :: rest =
          '[' :: (writeItems ((s :: t :: ss).map .text) ++ '\n' :: ']' :: '\n' :: rest) := by
        simp [Value.write]
      have hle := length_le_writeItems ((s :: t :: ss).map Value.text)
      rw [List.length_map] at hle
      rw [hwrite, readValue?, readItems?_texts (s :: t :: ss) room]
      · rfl
      · rw [List.length_append]
        omega

/-! ### Any plain value -/

theorem readValue?_toString (n : Int) (room : Nat) (cs : List Char) :
    readValue? (room + 1) ((toString n).toList ++ cs) =
      readScalar? ((toString n).toList ++ cs) := by
  obtain ⟨c, tail, hc, hstart⟩ := toString_eq_cons n
  rw [hc, List.cons_append]
  refine readValue?.eq_4 _ room ?_ ?_ <;>
  · rintro _ ⟨⟩
    rcases hstart with hdigit | hminus
    · cases hdigit
    · cases hminus

theorem readValue?_write {v : Value} (hv : PlainValue v) (room : Nat) :
    readValue? (room + 1) (v.write ++ '\n' :: rest) = some (v, '\n' :: rest) := by
  cases hv with
  | text s => exact readValue?_text s _ (by simp) (by simp)
  | whole hn => exact (readValue?_toString _ room _).trans (readScalar?_whole hn)
  | bool b => cases b <;> rfl
  | texts ss => exact readValue?_texts ss room

end Values

/-! ## Lines -/

section Lines

variable {rest : List Char}

theorem exists_cons_write {v : Value} (hv : PlainValue v) :
    ∃ c cs, v.write = c :: cs ∧ isBlank c = false := by
  cases hv with
  | text s =>
    obtain ⟨q, tail, hq, hquote⟩ := writeText_eq_cons s.toList
    exact ⟨q, tail, hq, by rcases hquote with rfl | rfl <;> rfl⟩
  | @whole n hn =>
    obtain ⟨c, cs, hcs, hc⟩ := toString_eq_cons n
    refine ⟨c, cs, hcs, ?_⟩
    rcases hc with hdigit | rfl
    · exact isBlank_of_isBare (by simp [isBare, Char.isAlphanum, hdigit])
    · rfl
  | bool b => cases b <;> exact ⟨_, _, rfl, rfl⟩
  | texts ss =>
    cases ss with
    | nil => exact ⟨_, _, rfl, rfl⟩
    | cons s ss => cases ss <;> exact ⟨_, _, rfl, rfl⟩

theorem exists_cons_writeEntry {e : Entry} (he : PlainEntry e) :
    ∃ c cs, writeEntry e = c :: cs ∧ isBare c = true := by
  obtain ⟨name, hkey, hname⟩ := he.key
  obtain ⟨c, cs, hcs, hc⟩ := hname.exists_cons
  refine ⟨c, cs ++ " = ".toList ++ e.value.write ++ ['\n'], ?_, hc⟩
  simp [writeEntry, writeKey, hkey, Key.ofName, writeName_of_bare hname, hcs]

theorem exists_cons_writeHeader (h : Header) : ∃ cs, writeHeader h = '[' :: cs := by
  unfold writeHeader
  split <;> exact ⟨_, rfl⟩

theorem readEntry?_write {e : Entry} (he : PlainEntry e) :
    readEntry? (readValue? maxDepth) (writeEntry e ++ rest) = some (e, '\n' :: rest) := by
  obtain ⟨⟨name, hkey, hname⟩, hv⟩ := he
  obtain ⟨key, v⟩ := e
  subst hkey
  obtain ⟨c, cs, hcs, hc⟩ := exists_cons_write hv
  have htext : writeEntry ⟨.ofName name, v⟩ ++ rest =
      name.toList ++ ([' '] ++ '=' :: ' ' :: (v.write ++ '\n' :: rest)) := by
    simp [writeEntry, writeKey, Key.ofName, writeName_of_bare hname]
  have hmark : EndsKey '=' := ⟨rfl, rfl, by decide⟩
  have hblank : skipBlanks (' ' :: (v.write ++ '\n' :: rest)) = v.write ++ '\n' :: rest := by
    rw [hcs]
    exact skipBlanks_cons hc _
  rw [htext, readEntry?, maxDepth, readKey?_of_bare hname (by simp) hmark]
  simp only [Option.bind_eq_bind, Option.bind_some, hblank, readValue?_write hv]

theorem readLineEnd?_cons {c : Char} (hc : isBare c = true) (cs : List Char) :
    readLineEnd? (c :: cs) = none := by
  have hne {d : Char} (hd : isBare d = false) : c ≠ d := ne_of_isBare hc hd
  rw [readLineEnd?, skipBlanks_cons (isBlank_of_isBare hc)]
  split
  · rename_i hcomment
    injection hcomment with hcomment
    exact absurd hcomment (hne rfl)
  · have hfeed : c ≠ '\n' := hne rfl
    have hreturn : c ≠ '\r' := hne rfl
    exact readBreak?.eq_4 _ (by simp) (by simp [hfeed]) (by simp [hreturn])

theorem readLine?_entry {e : Entry} (he : PlainEntry e) :
    readLine? (writeEntry e ++ rest) = some (.entry e, rest) := by
  obtain ⟨c, cs, hcs, hc⟩ := exists_cons_writeEntry he
  have hbracket : c ≠ '[' := ne_of_isBare hc rfl
  have hread : readEntry? (readValue? maxDepth) (writeEntry e ++ rest) = some (e, '\n' :: rest) :=
    readEntry?_write he
  rw [hcs, List.cons_append] at hread ⊢
  rw [readLine?.eq_3 _ (by simp [hbracket]) (by simp [hbracket]), readLineEnd?_cons hc]
  simp only [Option.bind_eq_bind, hread, Option.bind_some]
  rfl

theorem readLine?_header {h : Header} (hkey : ∃ name, h.key = .ofName name ∧ BareName name) :
    readLine? (writeHeader h ++ rest) = some (.header h, rest) := by
  obtain ⟨name, hkey, hname⟩ := hkey
  obtain ⟨c, cs, hcs, hc⟩ := hname.exists_cons
  obtain ⟨key, isElement⟩ := h
  subst hkey
  have hmark : EndsKey ']' := ⟨rfl, rfl, by decide⟩
  have hgap : ∀ c ∈ ([] : List Char), c = ' ' := by simp
  have hread := readKey?_of_bare hname hgap hmark 78
  cases isElement with
  | true =>
    have htext : writeHeader ⟨.ofName name, true⟩ ++ rest =
        '[' :: '[' :: (name.toList ++ ([] ++ ']' :: ']' :: '\n' :: rest)) := by
      simp [writeHeader, writeKey, Key.ofName, writeName_of_bare hname]
    rw [htext, readLine?, maxDepth, hread]
    rfl
  | false =>
    have htext : writeHeader ⟨.ofName name, false⟩ ++ rest =
        '[' :: (name.toList ++ ([] ++ ']' :: '\n' :: rest)) := by
      simp [writeHeader, writeKey, Key.ofName, writeName_of_bare hname]
    have hbracket : c ≠ '[' := ne_of_isBare hc rfl
    rw [htext, readLine?.eq_2 _ (by simp [hcs, hbracket]), maxDepth, hread]
    rfl

end Lines

/-! ## Documents -/

/-- With fuel enough the text gives these lines. -/
def Reads (cs : List Char) (ls : List Line) : Prop :=
  ∀ fuel, cs.length < fuel → readLines? fuel cs = some ls

theorem Reads.cons {text rest : List Char} {l : Line} {ls : List Line}
    (hstart : ∃ c cs, text = c :: cs ∧ isBlank c = false)
    (hline : readLine? (text ++ rest) = some (l, rest)) (hrest : Reads rest ls) :
    Reads (text ++ rest) (l :: ls) := by
  intro fuel hfuel
  obtain ⟨c, cs, rfl, hc⟩ := hstart
  rw [List.length_append, List.length_cons] at hfuel
  obtain ⟨fuel, rfl⟩ := Nat.exists_eq_succ_of_ne_zero (show fuel ≠ 0 by omega)
  have hmore := hrest fuel (by omega)
  rw [List.cons_append] at hline ⊢
  rw [readLines?, skipBlanks_cons hc]
  simp only [Option.bind_eq_bind, hline, Option.bind_some, hmore]

/-- The text in front of any other gives these lines in front of the lines of the other. -/
def ReadsFirst (text : List Char) (ls : List Line) : Prop :=
  ∀ rest more, Reads rest more → Reads (text ++ rest) (ls ++ more)

namespace ReadsFirst

theorem nil : ReadsFirst [] [] := fun _ _ h => h

theorem append {text text' : List Char} {ls ls' : List Line} (h : ReadsFirst text ls)
    (h' : ReadsFirst text' ls') : ReadsFirst (text ++ text') (ls ++ ls') := by
  intro rest more hrest
  rw [List.append_assoc, List.append_assoc]
  exact h _ _ (h' _ _ hrest)

theorem reads {text : List Char} {ls : List Line} (h : ReadsFirst text ls) : Reads text ls := by
  have hend : Reads [] [] := by
    intro fuel hfuel
    obtain ⟨fuel, rfl⟩ := Nat.exists_eq_succ_of_ne_zero (Nat.ne_of_gt hfuel)
    rfl
  simpa using h [] [] hend

theorem blank : ReadsFirst ['\n'] [.blank] :=
  fun _ _ hrest => hrest.cons ⟨_, _, rfl, rfl⟩ rfl

theorem entries {es : List Entry} (hes : ∀ e ∈ es, PlainEntry e) :
    ReadsFirst (es.flatMap writeEntry) (es.map .entry) := by
  induction es with
  | nil => exact nil
  | cons e es ih =>
    obtain ⟨he, hes⟩ := List.forall_mem_cons.mp hes
    obtain ⟨c, cs, hcs, hc⟩ := exists_cons_writeEntry he
    have hfirst : ReadsFirst (writeEntry e) [.entry e] :=
      fun _ _ hrest => hrest.cons ⟨c, cs, hcs, isBlank_of_isBare hc⟩ (readLine?_entry he)
    exact hfirst.append (ih hes)

theorem sections {s : Section} (hs : PlainSection s) :
    ReadsFirst (writeSection s) (.header s.header :: s.entries.map .entry) := by
  obtain ⟨cs, hcs⟩ := exists_cons_writeHeader s.header
  have hheader : ReadsFirst (writeHeader s.header) [.header s.header] :=
    fun _ _ hrest => hrest.cons ⟨'[', cs, hcs, rfl⟩ (readLine?_header hs.key)
  exact hheader.append (entries hs.entries)

end ReadsFirst

namespace Document

def sectionLines (s : Section) : List Line := .header s.header :: s.entries.map .entry

/-- The lines of the parts of a document. -/
def lineParts (d : Document) : List (List Line) :=
  let sections := d.sections.map sectionLines
  if d.entries.isEmpty then sections else d.entries.map .entry :: sections

theorem readsFirst_intercalate {parts : List (List Char)} {lines : List (List Line)}
    (h : List.Forall₂ ReadsFirst parts lines) :
    ReadsFirst (['\n'].intercalate parts) ([.blank].intercalate lines) := by
  induction h with
  | nil => exact .nil
  | @cons part ls parts lines hpart hparts ih =>
    cases hparts with
    | nil => simpa using hpart
    | cons =>
      rw [List.intercalate_cons_cons, List.intercalate_cons_cons]
      exact (hpart.append .blank).append ih

theorem readsFirst_parts {d : Document} (hd : PlainDocument d) :
    List.Forall₂ ReadsFirst d.parts d.lineParts := by
  have hsections : List.Forall₂ ReadsFirst (d.sections.map writeSection)
      (d.sections.map sectionLines) := by
    rw [List.forall₂_map_left_iff, List.forall₂_map_right_iff, List.forall₂_same]
    exact fun s hs => .sections (hd.sections s hs)
  unfold parts lineParts
  split
  · exact hsections
  · exact .cons (.entries hd.entries) hsections

theorem ofLines_entries (es : List Entry) (ls : List Line) :
    ofLines (es.map .entry ++ ls) = ⟨es ++ (ofLines ls).entries, (ofLines ls).sections⟩ := by
  induction es with
  | nil => rfl
  | cons e es ih => simp [ofLines, ih]

theorem ofLines_sections (ss : List Section) :
    ofLines ([.blank].intercalate (ss.map sectionLines)) = ⟨[], ss⟩ := by
  induction ss with
  | nil => rfl
  | cons s ss ih =>
    have hsection (ls : List Line) : ofLines (sectionLines s ++ ls) =
        ⟨[], ⟨s.header, s.entries ++ (ofLines ls).entries⟩ :: (ofLines ls).sections⟩ := by
      simp [sectionLines, ofLines, ofLines_entries]
    cases ss with
    | nil => simpa [ofLines] using hsection []
    | cons s' ss =>
      rw [List.map_cons, List.map_cons, List.intercalate_cons_cons, List.append_assoc, hsection]
      rw [List.map_cons] at ih
      rw [List.singleton_append, ofLines, ih]
      simp

theorem ofLines_intercalate (d : Document) : ofLines ([.blank].intercalate d.lineParts) = d := by
  obtain ⟨entries, sections⟩ := d
  unfold lineParts
  simp only
  split
  · rename_i hempty
    rw [ofLines_sections, List.isEmpty_iff.mp hempty]
  · cases sections with
    | nil => simpa [ofLines] using ofLines_entries entries []
    | cons s ss =>
      have hsections := ofLines_sections (s :: ss)
      rw [List.map_cons] at hsections ⊢
      rw [List.intercalate_cons_cons, List.append_assoc, ofLines_entries, List.singleton_append,
        ofLines, hsections, List.append_nil]

theorem skipMark_intercalate {d : Document} (hd : PlainDocument d) :
    skipMark (['\n'].intercalate d.parts) = ['\n'].intercalate d.parts := by
  have hparts : ∀ part ∈ d.parts.head?, ∃ c cs, part = c :: cs ∧ c ≠ '\ufeff' := by
    obtain ⟨entries, sections⟩ := d
    intro part hpart
    cases entries with
    | cons e es =>
      obtain rfl : (e :: es).flatMap writeEntry = part := Option.some.inj hpart
      obtain ⟨c, cs, hcs, hc⟩ := exists_cons_writeEntry (hd.entries e List.mem_cons_self)
      exact ⟨c, cs ++ es.flatMap writeEntry, by simp [hcs], ne_of_isBare hc rfl⟩
    | nil =>
      cases sections with
      | nil => cases hpart
      | cons s ss =>
        obtain rfl : writeSection s = part := Option.some.inj hpart
        obtain ⟨cs, hcs⟩ := exists_cons_writeHeader s.header
        exact ⟨'[', cs ++ s.entries.flatMap writeEntry, by simp [writeSection, hcs], by decide⟩
  cases hd' : d.parts with
  | nil => rfl
  | cons part parts =>
    obtain ⟨c, cs, rfl, hc⟩ := hparts part (by rw [hd']; rfl)
    obtain ⟨tail, htail⟩ : ∃ tail, ['\n'].intercalate ((c :: cs) :: parts) = c :: tail := by
      cases parts with
      | nil => exact ⟨cs, by simp⟩
      | cons next parts => exact ⟨_, by rw [List.intercalate_cons_cons]; rfl⟩
    rw [htail]
    exact skipMark.eq_2 _ (by simp [hc])

/-- What is written of a plain document is read back as the document. -/
theorem ofChars?_write {d : Document} {text : String} (hd : PlainDocument d)
    (hwrite : d.write? = some text) : ofChars? text.toList = some d := by
  unfold write? at hwrite
  split at hwrite
  · injection hwrite with hwrite
    subst hwrite
    have hreads := (readsFirst_intercalate (readsFirst_parts hd)).reads
    rw [String.toList_ofList, ofChars?, skipMark_intercalate hd, hreads _ (Nat.lt_succ_self _),
      Option.map_some, ofLines_intercalate]
  · cases hwrite

end Document

end CalendarRules.Toml
