/-
**The canonical form of compiled conditions.**

Compiling a condition rewrites its text up to three times, and every pass reads what the pass before
it has written.  Whatever the text and the column names hold, the passes agree on the quoted spans:
naming fills every `?` outside spans and adds no quote character, spreading lists keeps the `?`
where they are, and a column that is quoted for an equation is one span.  So the result has no `?`
marker and no list.  Such a fragment is called canonical, and compiled as a string it stays as it
is, as long as its text holds a marker; a text without any could still be taken for a column.

Main definitions:

* `Fragment.IsCanonical` — no `?` marker in the text, and no list among the bindings.

Main results:

* `countPositional_nameMarkers` — naming leaves no `?`;
* `Fragment.countPositional_spread` — spreading keeps their number;
* `Condition.isCanonical_compile` — the compiled condition is canonical;
* `Fragment.IsCanonical.compile_raw` — a canonical fragment with a named marker is compiled to
  itself;
* `Condition.compile_canonical_fixed` — **compiling twice is compiling once**.
-/

import BoundQuery.Proofs.Grammar
import BoundQuery.Proofs.PlainText
import BoundQuery.Proofs.SlotNames

set_option relaxedAutoImplicit false
set_option autoImplicit false

namespace BoundQuery

open Token

variable {α : Type}

/-! ### Texts without `?` markers -/

/-- A text has no `?` marker exactly if each of its `?` lies in a quoted span. -/
theorem countPositional_eq_zero_iff (t : Text) :
    countPositional t = 0 ↔ ∀ i : Nat, t[i]? = some '?' → ¬ OutsideSpans t i := by
  have hread := isReading_tokenize t
  rw [countPositional, List.countP_eq_zero]
  constructor
  · intro h i hget hout
    obtain ⟨us, vs, hsplit, -⟩ := (hread.positional i).2 ⟨hget, hout⟩
    have hmem : positional ∈ tokenize t := by simp [hsplit]
    exact h _ hmem rfl
  · intro h k hk hpos
    cases k with
    | text s => cases hpos
    | named n => cases hpos
    | positional =>
        obtain ⟨us, vs, hsplit⟩ := List.append_of_mem hk
        obtain ⟨hget, hout⟩ := (hread.positional _).1 ⟨us, vs, hsplit, rfl⟩
        exact h _ hget hout

/-! ### Naming -/

/-- A text in which the gaps are named has none, whatever span it starts in. -/
theorem gapped_nameGaps {stem : Text} (hstem : ∀ c ∈ stem, isWordChar c = true) (q : Option Char)
    (t : Text) (i : Nat) : (gapped q (nameGaps stem i (gapped q t))).countP Option.isNone = 0 := by
  induction t generalizing q i with
  | nil => rfl
  | cons c t ih =>
      by_cases hgap : q = none ∧ c = '?'
      · obtain ⟨rfl, rfl⟩ := hgap
        -- the name closes no span and opens none
        have hname : ∀ x ∈ ':' :: (stem ++ decimal i), isQuoteChar x = false ∧ x ≠ '?' := by
          intro x hx
          rcases List.mem_cons.1 hx with rfl | hx
          · decide
          · have hword : isWordChar x = true :=
              (List.mem_append.1 hx).elim (hstem x) isWordChar_of_mem_decimal
            exact ⟨Mode.isQuoteChar_of_isWordChar hword, ne_of_isWordChar hword isWordChar_question⟩
        have hplain : Text.IsPlainJoiner (':' :: (stem ++ decimal i)) := hname
        rw [gapped, if_pos ⟨rfl, rfl⟩, nameGaps, hplain.isClosed.gapped_append,
          gapped_of_no_question hplain.no_question, List.countP_append, countP_isNone_map_some,
          Nat.zero_add]
        exact ih none (i + 1)
      · rw [gapped, if_neg hgap, nameGaps, gapped, if_neg hgap,
          List.countP_cons_of_neg (by simp)]
        exact ih (spanStep q c) i

/-- **Naming leaves no `?` marker.** -/
theorem countPositional_nameMarkers {stem : Text} (hstem : ∀ c ∈ stem, isWordChar c = true)
    (i : Nat) (t : Text) : countPositional (nameMarkers stem i (tokenize t)) = 0 := by
  rw [nameMarkers_tokenize, countPositional_eq_gaps, gapped_nameGaps hstem]

/-! ### Spreading -/

theorem countP_isPositional_merged (ts : List Token) :
    (merged ts).countP isPositional = ts.countP isPositional := by
  rw [← countP_isPositional_markers, ← countP_isPositional_markers ts, merged,
    markers_foldr_prepend]
  exact congrArg _ (List.append_nil _)

theorem countP_isPositional_commaMarkers (ns : List Text) :
    (commaMarkers ns).countP isPositional = 0 := by
  induction ns with
  | nil => rfl
  | cons n ns ih =>
      cases ns with
      | nil => rfl
      | cons n' ns =>
          rw [commaMarkers, List.countP_cons_of_neg (by simp [isPositional]),
            List.countP_cons_of_neg (by simp [isPositional]), ih]

theorem countP_isPositional_substitute (σ : Text → List Text) (ts : List Token) :
    (ts.flatMap (Token.substitute σ)).countP isPositional = ts.countP isPositional := by
  induction ts with
  | nil => rfl
  | cons t ts ih =>
      rw [List.flatMap_cons, List.countP_append, ih, List.countP_cons, Nat.add_comm]
      cases t with
      | text s => rfl
      | positional => rfl
      | named n => exact congrArg _ (countP_isPositional_commaMarkers (σ n))

/-- **Spreading lists keeps the `?` markers.** -/
theorem Fragment.countPositional_spread (f : Fragment α) :
    countPositional f.spread.sql = countPositional f.sql := by
  rw [countPositional, tokenize_spread, countP_isPositional_merged, countP_isPositional_substitute,
    countPositional]

/-! ### Equations -/

/-- The equation of a column without `?` markers has none: quoted, the column is one span. -/
theorem Condition.countPositional_equation (d : Dialect) {column : Text} (v : Value α)
    (h : countPositional column = 0) : countPositional (equation d column v).sql = 0 := by
  have hquoted := d.quote.isInert_quote column
  have hsign : Text.IsPlainJoiner (" = :".toList ++ conditionStem) := by decide
  rw [equation, List.append_assoc, List.append_assoc, hquoted.isClosed.countPositional_append,
    hquoted.countPositional, ← List.append_assoc, hsign.isClosed.countPositional_append,
    countPositional_of_no_question hsign.no_question, h]

/-! ### The canonical form -/

/-- A fragment on which compilation has nothing left to rewrite. -/
structure Fragment.IsCanonical (f : Fragment α) : Prop where
  /-- There is no `?` marker. -/
  noSlot : countPositional f.sql = 0
  /-- No binding is a list. -/
  noList : f.params.hasList = false

/-- A canonical fragment with a named marker is compiled to itself. -/
theorem Fragment.IsCanonical.compile_raw {f : Fragment α} (h : f.IsCanonical)
    (hnamed : hasNamed f.sql = true) (d : Dialect) :
    (Condition.raw f.sql).compile d f.params = f := by
  have hne : f.sql.isEmpty = false := by
    cases hsql : f.sql with
    | nil => rw [hsql] at hnamed; cases hnamed
    | cons c t => rfl
  have hspread : ((Condition.raw f.sql).named d f.params).spread = f := by
    rw [Condition.named, Fragment.namePositional_of_none conditionStem f.params h.noSlot]
    exact Fragment.spread_of_no_list h.noList
  simp [Condition.compile, Condition.isEmpty, hne, hspread, Condition.resolve, hnamed]

namespace Condition

theorem countPositional_named (d : Dialect) (c : Condition α) (b : Bindings α) :
    countPositional (c.named d b).sql = 0 := by
  rw [sql_named, countPositional_nameMarkers (c.isWordChar_slotStem b)]

/-- A text is only taken for a column if it has no `?` marker. -/
theorem countPositional_of_bareColumn? {c : Condition α} {column : Text}
    (h : c.bareColumn? = some column) : countPositional column = 0 := by
  cases c with
  | none => cases h
  | clauses cs => cases h
  | raw sql =>
      rw [bareColumn?] at h
      split at h
      · next hnone => exact Option.some.inj h ▸ hnone
      · cases h

/-- What a text stands for is an equation of the column it is taken for, or the text itself. -/
theorem resolve_cases (d : Dialect) (column? : Option Text) (f : Fragment α) :
    resolve d column? f = f ∨
      ∃ column v, column? = some column ∧ resolve d column? f = equation d column v := by
  simp only [resolve]
  split
  · exact .inl rfl
  · split
    · next _ _ column v _ => exact .inr ⟨column, v, rfl, rfl⟩
    · exact .inl rfl

/-- The compiled condition has no `?` marker. -/
theorem countPositional_compile (d : Dialect) (c : Condition α) (b : Bindings α) :
    countPositional (c.compile d b).sql = 0 := by
  cases hc : c.isEmpty with
  | true =>
      rw [compile_of_isEmpty d b hc]
      rfl
  | false =>
      have hcompile : c.compile d b = resolve d c.bareColumn? (c.named d b).spread := by
        simp [compile, hc]
      rw [hcompile]
      rcases resolve_cases d c.bareColumn? (c.named d b).spread with h | ⟨column, v, hcolumn, h⟩
      · rw [h, Fragment.countPositional_spread, countPositional_named]
      · rw [h, countPositional_equation d v (countPositional_of_bareColumn? hcolumn)]

/-- The compiled condition is canonical, if there is a condition. -/
theorem isCanonical_compile (d : Dialect) {c : Condition α} (b : Bindings α)
    (h : c.isEmpty = false) : (c.compile d b).IsCanonical where
  noSlot := countPositional_compile d c b
  noList := hasList_compile d b h

/-- **Compiled conditions are in canonical form, and compiling twice is compiling once.**  The text
has no `?` outside quoted spans, no binding is a list unless the condition was empty, no key occurs
twice, and compiled again, as a string and with any choices, the result is the same, if the
condition was empty or the text holds a named marker. -/
theorem compile_canonical_fixed (d : Dialect) (c : Condition α) (b : Bindings α) :
    (∀ i : Nat, (c.compile d b).sql[i]? = some '?' → ¬ OutsideSpans (c.compile d b).sql i) ∧
      positional ∉ tokenize (c.compile d b).sql ∧
      (c.isEmpty = false → ∀ e ∈ (c.compile d b).params.entries, e.2.isList = false) ∧
      (c.compile d b).params.keys.Nodup ∧
      (c.isEmpty = true ∨ hasNamed (c.compile d b).sql = true →
        ∀ d' : Dialect,
          (raw (c.compile d b).sql).compile d' (c.compile d b).params = c.compile d b) := by
  have hslot := countPositional_compile d c b
  refine ⟨(countPositional_eq_zero_iff _).1 hslot, fun hmem => ?_, fun hc => ?_,
    (c.compile d b).params.nodup, fun h d' => ?_⟩
  · exact List.countP_eq_zero.1 hslot _ hmem rfl
  · simpa [Bindings.hasList] using (isCanonical_compile d b hc).noList
  · cases hc : c.isEmpty with
    | true =>
        rw [compile_of_isEmpty d b hc]
        exact compile_of_isEmpty d' b rfl
    | false =>
        have hnamed : hasNamed (c.compile d b).sql = true := by simpa [hc] using h
        exact (isCanonical_compile d b hc).compile_raw hnamed d'

end Condition

end BoundQuery
