/-
**Spreading lists is exact.**

Spreading writes a text that is read again, and collects entries in a map in which a later one could
replace an earlier one.  Neither goes wrong.  Which entries are spread is decided entry by entry and
from the entry alone; only the names are chosen with a view to all names in use.  Given the names,
the outcome is a substitution: in the tokens of the text, every marker of a list that is spread is
replaced by one marker for each element with commas in between, and in the entries, every list that
is spread is replaced by its elements and every other list by nothing.

The tokens are met exactly, and not up to the division of plain text, because a comma that is put in
stands between two markers and so next to no other text.

Main definitions:

* `listToSpread?`, `Bindings.listsToSpread` — the list of an entry, if it is spread, and those of all
  entries;
* `Token.inSpread`, `entryInSpread` — what stands in the place of a token and of an entry;
* `Fragment.SpreadsOver` — **the outcome of spreading**, with the names of the elements given.

Main results:

* `Token.merged_substitute` — substituting names for names leaves plain text in one piece;
* `nodup_made_spreads`, `across_names_unique` — no name is made up twice, and no list spread twice;
* `SpreadsOver.not_mem_names`, `map_get?_names`, `get?_of_unbound` — no list that is spread keeps
  its marker, its elements are bound in order, and a marker without a value gains none;
* `Fragment.spread_exact` — spreading has that outcome, for names that the search found.
-/

import BoundQuery.Proofs.Grammar
import BoundQuery.Proofs.Naming
import BoundQuery.Proofs.Spreading

set_option relaxedAutoImplicit false
set_option autoImplicit false

namespace BoundQuery

open Token

variable {α : Type}

/-! ### The outcome -/

/-- The list of an entry with its name, if it is spread: the list has elements, and its name is not
all digits. -/
def listToSpread? : Key × Value α → Option (Text × List (Option α))
  | (.name m, .list ds) => if ds.isEmpty || m.isDigits then none else some (m, ds)
  | _ => none

/-- The lists that are spread with their names, in order. -/
def Bindings.listsToSpread (b : Bindings α) : List (Text × List (Option α)) :=
  b.entries.filterMap listToSpread?

/-- What stands in the place of a token when the lists named `ms` are spread over the names that `σ`
has for them. -/
def Token.inSpread (ms : List Text) (σ : Text → List Text) : Token → List Token
  | .named m => if ms.contains m then commaMarkers (σ m) else [.named m]
  | t => [t]

/-- What stands in the place of an entry when lists are spread over the names that `σ` has for
them. -/
def entryInSpread (σ : Text → List Text) (e : Key × Value α) : List (Key × Value α) :=
  match listToSpread? e with
  | some (m, ds) => ((σ m).map Key.name).zip (ds.map Value.scalar)
  | none => if e.2.isList then [] else [e]

/-- **The outcome of spreading** the lists of `f` over the names that `σ` has for them. -/
structure Fragment.SpreadsOver (f : Fragment α) (σ : Text → List Text) (g : Fragment α) :
    Prop where
  /-- The text is read with one marker for each element in the place of the list's marker. -/
  tokens : tokenize g.sql =
    (tokenize f.sql).flatMap (Token.inSpread (f.params.listsToSpread.map Prod.fst) σ)
  /-- A list has as many names as elements. -/
  length : ∀ l ∈ f.params.listsToSpread, (σ l.1).length = l.2.length
  /-- The names of all lists are distinct. -/
  distinct : (f.params.listsToSpread.flatMap fun l => σ l.1).Nodup
  /-- The names are names of no binding and of no marker. -/
  fresh : ∀ l ∈ f.params.listsToSpread, ∀ n ∈ σ l.1,
    n ∉ f.params.names ∧ n ∉ names (tokenize f.sql)
  /-- The entries stay in order, with the elements of a list in its place. -/
  entries : g.params.entries = f.params.entries.flatMap (entryInSpread σ)

/-! ### What follows from it -/

theorem listToSpread?_eq_some_iff {e : Key × Value α} {m : Text} {ds : List (Option α)} :
    listToSpread? e = some (m, ds) ↔
      e = (.name m, .list ds) ∧ ds ≠ [] ∧ m.isDigits = false := by
  obtain ⟨k, v⟩ := e
  cases k with
  | index i => simp [listToSpread?]
  | name m' =>
      cases v with
      | null => simp [listToSpread?]
      | scalar d => simp [listToSpread?]
      | list ds' =>
          simp only [listToSpread?]
          split
          · next hno =>
              refine iff_of_false (by simp) ?_
              rintro ⟨heq, hne, hd⟩
              cases heq
              simp [hne, hd] at hno
          · next hyes =>
              simp only [Bool.or_eq_true, not_or, Bool.not_eq_true] at hyes
              constructor
              · intro h
                cases h
                exact ⟨rfl, List.isEmpty_eq_false_iff.1 hyes.1, hyes.2⟩
              · rintro ⟨heq, -, -⟩
                cases heq
                rfl

namespace Bindings

theorem mem_listsToSpread {b : Bindings α} {m : Text} {ds : List (Option α)} :
    (m, ds) ∈ b.listsToSpread ↔
      (Key.name m, Value.list ds) ∈ b.entries ∧ ds ≠ [] ∧ m.isDigits = false := by
  rw [listsToSpread, List.mem_filterMap]
  constructor
  · rintro ⟨e, he, heq⟩
    obtain ⟨rfl, hne, hd⟩ := listToSpread?_eq_some_iff.1 heq
    exact ⟨he, hne, hd⟩
  · exact fun ⟨he, h⟩ => ⟨_, he, listToSpread?_eq_some_iff.2 ⟨rfl, h⟩⟩

theorem mem_names_of_mem_listsToSpread {b : Bindings α} {l : Text × List (Option α)}
    (h : l ∈ b.listsToSpread) : l.1 ∈ b.names := by
  obtain ⟨hentry, -, -⟩ := mem_listsToSpread.1 h
  exact (mem_names_iff b l.1).2 (List.mem_map_of_mem hentry)

end Bindings

theorem Token.names_inSpread (ms : List Text) (σ : Text → List Text) (ts : List Token) :
    names (ts.flatMap (Token.inSpread ms σ)) =
      (names ts).flatMap fun m => if ms.contains m then σ m else [m] := by
  induction ts with
  | nil => rfl
  | cons t ts ih =>
      rw [List.flatMap_cons, names_append, ih, names_cons, List.flatMap_append]
      refine congrArg (· ++ _) ?_
      cases t with
      | text s => rfl
      | positional => rfl
      | named m =>
          simp only [Token.inSpread, name?, Option.toList, List.flatMap_cons, List.flatMap_nil,
            List.append_nil]
          split
          · exact names_commaMarkers _
          · rfl

namespace Fragment.SpreadsOver

variable {f g : Fragment α} {σ : Text → List Text}

/-- **The marker of a list that is spread is gone.** -/
theorem not_mem_names (h : f.SpreadsOver σ g) {l : Text × List (Option α)}
    (hl : l ∈ f.params.listsToSpread) : l.1 ∉ names (tokenize g.sql) := by
  rw [h.tokens, names_inSpread, List.mem_flatMap]
  rintro ⟨m, -, hm⟩
  split at hm
  · next hmem =>
      -- names of elements are names of no binding
      obtain ⟨l', hl', rfl⟩ := List.mem_map.1 (List.contains_iff_mem.1 hmem)
      exact (h.fresh l' hl' l.1 hm).1 (Bindings.mem_names_of_mem_listsToSpread hl)
  · next hno =>
      rw [List.mem_singleton] at hm
      exact hno (List.contains_iff_mem.2 (hm ▸ List.mem_map_of_mem hl))

/-- An entry of the outcome was there before and is no list, or has the name of an element. -/
theorem mem_entries (h : f.SpreadsOver σ g) {e : Key × Value α} (he : e ∈ g.params.entries) :
    (e ∈ f.params.entries ∧ e.2.isList = false) ∨
      ∃ l ∈ f.params.listsToSpread, ∃ n ∈ σ l.1, e.1 = .name n := by
  rw [h.entries, List.mem_flatMap] at he
  obtain ⟨x, hx, hex⟩ := he
  unfold entryInSpread at hex
  split at hex
  · next m ds heq =>
      obtain ⟨n, hn, hkey⟩ := List.mem_map.1 (List.of_mem_zip (a := e.1) (b := e.2) hex).1
      exact .inr ⟨(m, ds), List.mem_filterMap.2 ⟨x, hx, heq⟩, n, hn, hkey.symm⟩
  · split at hex
    · cases hex
    · next hlist =>
        obtain rfl := List.mem_singleton.1 hex
        exact .inl ⟨hx, Bool.eq_false_iff.2 hlist⟩

/-- **Each element of a list is bound under its name**, and there are as many names as elements. -/
theorem map_get?_names (h : f.SpreadsOver σ g) {l : Text × List (Option α)}
    (hl : l ∈ f.params.listsToSpread) :
    (σ l.1).map (fun n => g.params.get? (.name n)) = l.2.map fun d => some (.scalar d) := by
  obtain ⟨e, he, heq⟩ := List.mem_filterMap.1 hl
  refine List.ext_getElem (by simp [h.length l hl]) fun i hi hi' => ?_
  have hn : i < (σ l.1).length := by simpa using hi
  have hd : i < l.2.length := by simpa using hi'
  rw [List.getElem_map, List.getElem_map, Bindings.get?_eq_some_iff, h.entries]
  refine List.mem_flatMap.2 ⟨e, he, ?_⟩
  have hplace : entryInSpread σ e = ((σ l.1).map Key.name).zip (l.2.map Value.scalar) := by
    rw [entryInSpread, heq]
  rw [hplace, List.mem_iff_getElem]
  have hzip : i < (((σ l.1).map Key.name).zip (l.2.map Value.scalar)).length := by
    rw [List.length_zip, List.length_map, List.length_map]
    exact Nat.lt_min.2 ⟨hn, hd⟩
  exact ⟨i, hzip, by simp⟩

/-- **A marker without a value gains none**: what was not bound, or was bound to a list, is not
bound under its name. -/
theorem get?_of_unbound (h : f.SpreadsOver σ g) {m : Text} (hm : m ∈ names (tokenize f.sql))
    (hunbound : ∀ v, f.params.get? (.name m) = some v → v.isList = true) :
    g.params.get? (.name m) = none := by
  cases hv : g.params.get? (.name m) with
  | none => rfl
  | some v =>
      rcases h.mem_entries ((Bindings.get?_eq_some_iff _ _ v).1 hv) with
        ⟨hes, hlist⟩ | ⟨l, hl, n, hn, hkey⟩
      · rw [hunbound v ((Bindings.get?_eq_some_iff _ _ v).2 hes)] at hlist
        cases hlist
      · cases hkey
        exact absurd hm (h.fresh l hl m hn).2

end Fragment.SpreadsOver

/-! ### Plain text stays in one piece -/

namespace Token

/-- Markers with commas in between begin with a marker. -/
theorem commaMarkers_cons (n : Text) (ns : List Text) :
    ∃ ts, commaMarkers (n :: ns) = named n :: ts := by
  cases ns with
  | nil => exact ⟨_, rfl⟩
  | cons n' ns => exact ⟨_, rfl⟩

/-- The commas between markers touch no other text. -/
theorem merged_commaMarkers_append (ns : List Text) (ts : List Token) :
    merged (commaMarkers ns ++ ts) = commaMarkers ns ++ merged ts := by
  induction ns with
  | nil => rfl
  | cons n ns ih =>
      cases ns with
      | nil => rfl
      | cons n' ns =>
          have hcomma : addText ',' (commaMarkers (n' :: ns) ++ merged ts) =
              text [','] :: (commaMarkers (n' :: ns) ++ merged ts) := by
            obtain ⟨us, hus⟩ := commaMarkers_cons n' ns
            rw [hus]
            rfl
          simp only [commaMarkers, List.cons_append, merged_cons, prepend, List.foldr_cons,
            List.foldr_nil, ih, hcomma]

/-- **Substituting names for names leaves plain text in one piece.** -/
theorem merged_substitute {σ : Text → List Text} (hσ : ∀ n, σ n ≠ []) {ts : List Token}
    (h : InOnePiece ts) :
    merged (ts.flatMap (substitute σ)) = ts.flatMap (substitute σ) := by
  induction ts with
  | nil => rfl
  | cons t ts ih =>
      rw [List.flatMap_cons]
      cases t with
      | positional =>
          simp only [substitute, List.singleton_append, merged_cons, prepend, ih h.tail]
      | named n => rw [substitute, merged_commaMarkers_append, ih h.tail]
      | text s =>
          -- what follows the text is a marker, or comes from one
          have hnext : ∀ r us, ts.flatMap (substitute σ) ≠ text r :: us := by
            intro r us heq
            cases ts with
            | nil => cases heq
            | cons u ts =>
                rw [List.flatMap_cons] at heq
                cases u with
                | text s' => exact h.apart [] s s' ts rfl
                | positional => cases heq
                | named n =>
                    obtain ⟨x, xs, hx⟩ := List.exists_cons_of_ne_nil (hσ n)
                    obtain ⟨vs, hvs⟩ := commaMarkers_cons x xs
                    rw [substitute, hx, hvs] at heq
                    cases heq
          simp only [substitute, List.singleton_append, merged_cons, prepend, ih h.tail]
          exact foldr_addText_of_no_text (h.nonempty s List.mem_cons_self) hnext

end Token

/-! ### The names that the search found -/

/-- **No name is made up twice.** -/
theorem nodup_made_spreads (taken : List Text) (es : List (Key × Value α)) :
    ((spreads taken es).flatMap Spread.made).Nodup := by
  induction es generalizing taken with
  | nil => exact List.nodup_nil
  | cons e es ih =>
      rw [spreads_cons, List.flatMap_cons]
      refine List.nodup_append.2 ⟨?_, ih _, ?_⟩
      · rcases spreadOne_cases taken e with ⟨-, hs⟩ | ⟨m, ds, -, -, -, hs⟩ | ⟨ds, -, -, hs⟩
        · rw [hs]; exact List.nodup_nil
        · rw [hs]; exact nodup_freshElementNames _ _ _
        · rw [hs]; exact List.nodup_nil
      · rintro n hn n' hn' rfl
        exact not_mem_made_spreads hn' (List.mem_append_right _ hn)

/-- What is spread under a name is the entry with that name. -/
theorem key_of_spreadOne {taken : List Text} {e : Key × Value α} {m : Text} {names : List Text}
    {ds : List (Option α)} (h : spreadOne taken e = .across m names ds) : e.1 = .name m := by
  rcases spreadOne_cases taken e with ⟨-, hs⟩ | ⟨m', ds', rfl, -, -, hs⟩ | ⟨ds', -, -, hs⟩
  · rw [hs] at h; cases h
  · rw [hs] at h; cases h; rfl
  · rw [hs] at h; cases h

theorem mem_keys_of_across {taken : List Text} {es : List (Key × Value α)} {m : Text}
    {names : List Text} {ds : List (Option α)} (h : Spread.across m names ds ∈ spreads taken es) :
    Key.name m ∈ Assoc.keys es :=
  List.mem_map_of_mem (mem_of_across h).1

/-- A list is spread once, if no key occurs twice. -/
theorem across_names_unique {taken : List Text} {es : List (Key × Value α)}
    (hes : (Assoc.keys es).Nodup) {m : Text} {names names' : List Text} {ds ds' : List (Option α)}
    (h : Spread.across m names ds ∈ spreads taken es)
    (h' : Spread.across m names' ds' ∈ spreads taken es) : names = names' := by
  induction es generalizing taken with
  | nil => cases h
  | cons e es ih =>
      obtain ⟨hnew, hrest⟩ := List.nodup_cons.1 hes
      rw [spreads_cons] at h h'
      rcases List.mem_cons.1 h with heq | hmem
      · rcases List.mem_cons.1 h' with heq' | hmem'
        · rw [← heq] at heq'
          cases heq'
          rfl
        · exact absurd (key_of_spreadOne heq.symm ▸ mem_keys_of_across hmem') hnew
      · rcases List.mem_cons.1 h' with heq' | hmem'
        · exact absurd (key_of_spreadOne heq'.symm ▸ mem_keys_of_across hmem) hnew
        · exact ih hrest hmem hmem'

/-- What becomes of an entry, once it is known which names its list is spread over. -/
theorem entries_spreadOne (taken : List Text) (e : Key × Value α) {σ : Text → List Text}
    (hσ : ∀ m names ds, spreadOne taken e = .across m names ds → σ m = names) :
    (spreadOne taken e).entries = entryInSpread σ e ∧
      (spreadOne taken e).made = (listToSpread? e).toList.flatMap fun l => σ l.1 := by
  rcases spreadOne_cases taken e with ⟨hv, hs⟩ | ⟨m, ds, rfl, hne, hd, hs⟩ | ⟨ds, hv, hc, hs⟩
  · have hnone : listToSpread? e = none := by
      obtain ⟨k, v⟩ := e
      cases v with
      | list ds => cases hv
      | null => cases k <;> rfl
      | scalar d => cases k <;> rfl
    simp [hs, Spread.entries, Spread.made, entryInSpread, hnone, hv]
  · have hsome : listToSpread? (Key.name m, Value.list ds) = some (m, ds) :=
      listToSpread?_eq_some_iff.2 ⟨rfl, hne, hd⟩
    simp [hs, Spread.entries, Spread.made, entryInSpread, hsome, hσ m _ ds hs]
  · have hnone : listToSpread? e = none := by
      cases hl : listToSpread? e with
      | none => rfl
      | some l =>
          obtain ⟨rfl, hne, hd⟩ := listToSpread?_eq_some_iff.1 hl
          cases hv
          have hsome := Key.canSpread_eq_some_iff.2 ⟨rfl, mt List.length_eq_zero_iff.1 hne, hd⟩
          rw [hc] at hsome
          cases hsome
    have hlist : e.2.isList = true := by rw [hv]; rfl
    simp [hs, Spread.entries, Spread.made, entryInSpread, hnone, hlist]

/-- **The entries and the names made up**, once it is known which names each list is spread over. -/
theorem entries_spreads (taken : List Text) (es : List (Key × Value α)) {σ : Text → List Text}
    (hσ : ∀ m names ds, Spread.across m names ds ∈ spreads taken es → σ m = names) :
    (spreads taken es).flatMap Spread.entries = es.flatMap (entryInSpread σ) ∧
      (spreads taken es).flatMap Spread.made =
        (es.filterMap listToSpread?).flatMap fun l => σ l.1 := by
  induction es generalizing taken with
  | nil => exact ⟨rfl, rfl⟩
  | cons e es ih =>
      rw [spreads_cons] at hσ ⊢
      obtain ⟨hentries, hmade⟩ := entries_spreadOne taken e
        fun m names ds heq => hσ m names ds (heq ▸ List.mem_cons_self)
      obtain ⟨hrest, hmore⟩ :=
        ih _ fun m names ds hmem => hσ m names ds (List.mem_cons_of_mem _ hmem)
      have hfirst : (e :: es).filterMap listToSpread? =
          (listToSpread? e).toList ++ es.filterMap listToSpread? := by
        cases hl : listToSpread? e <;> simp [hl]
      constructor
      · rw [List.flatMap_cons, List.flatMap_cons, hentries, hrest]
      · rw [List.flatMap_cons, hmore, hmade, hfirst, List.flatMap_append]

/-! ### Spreading has the outcome -/

namespace Fragment

/-- The names that stand for a list are those it is spread over. -/
theorem namesFor_of_across {f : Fragment α} {m : Text} {names : List Text} {ds : List (Option α)}
    (h : Spread.across m names ds ∈ f.plan) : Spread.namesFor f.plan m = names := by
  obtain ⟨hentry, hne, hd, -⟩ := mem_of_across h
  rcases f.namesFor_cases m with ⟨names', ds', -, hs, hnames⟩ | ⟨hno, -⟩
  · rw [hnames]
    exact across_names_unique f.params.nodup hs h
  · rcases hno ds ((Bindings.get?_eq_some_iff _ _ _).2 hentry) with hnil | hdigits
    · exact absurd hnil hne
    · rw [hdigits] at hd
      cases hd

/-- The marker of a list that is spread gets the names of the elements, and any other its own. -/
theorem substitute_namesFor (f : Fragment α) (t : Token) :
    t.substitute (Spread.namesFor f.plan) =
      t.inSpread (f.params.listsToSpread.map Prod.fst) (Spread.namesFor f.plan) := by
  cases t with
  | text s => rfl
  | positional => rfl
  | named m =>
      simp only [Token.substitute, Token.inSpread]
      split
      · rfl
      · next hno =>
          rcases f.namesFor_cases m with ⟨names, ds, -, hs, -⟩ | ⟨-, hself⟩
          · obtain ⟨hentry, hne, hd, -⟩ := mem_of_across hs
            have hmem := Bindings.mem_listsToSpread.2 ⟨hentry, hne, hd⟩
            exact absurd (List.contains_iff_mem.2 (List.mem_map_of_mem hmem)) hno
          · rw [hself]
            rfl

theorem spreadsOver_spread (f : Fragment α) :
    f.SpreadsOver (Spread.namesFor f.plan) f.spread := by
  obtain ⟨hentries, hmade⟩ := entries_spreads f.taken f.params.entries
    fun _ _ _ hmem => f.namesFor_of_across hmem
  have hacross : ∀ l ∈ f.params.listsToSpread,
      ∃ names, Spread.across l.1 names l.2 ∈ f.plan ∧ Spread.namesFor f.plan l.1 = names := by
    intro l hl
    obtain ⟨hentry, hne, hd⟩ := Bindings.mem_listsToSpread.1 hl
    obtain ⟨names, hs⟩ : ∃ names, Spread.across l.1 names l.2 ∈ f.plan :=
      exists_across hentry hne hd
    exact ⟨names, hs, f.namesFor_of_across hs⟩
  refine ⟨?_, fun l hl => ?_, ?_, fun l hl n hn => ?_, (f.entries_spread).trans hentries⟩
  · have hpiece : InOnePiece (tokenize f.sql) := inOnePiece_scan .plain f.sql
    rw [tokenize_spread, merged_substitute f.namesFor_ne_nil hpiece]
    exact congrArg (List.flatMap · (tokenize f.sql)) (funext f.substitute_namesFor)
  · obtain ⟨names, hs, hnames⟩ := hacross l hl
    obtain ⟨-, -, -, hlength, -⟩ := mem_of_across hs
    rw [hnames, hlength]
  · rw [Bindings.listsToSpread, ← hmade]
    exact nodup_made_spreads f.taken f.params.entries
  · obtain ⟨names, hs, hnames⟩ := hacross l hl
    rw [hnames] at hn
    have hfree := not_mem_made_spreads (List.mem_flatMap.2 ⟨_, hs, hn⟩)
    exact ⟨fun h => hfree (List.mem_append_left _ h), fun h => hfree (List.mem_append_right _ h)⟩

/-- **Spreading lists is exact.**  There are names, as many for each list that is spread as it has
elements, all distinct and none of them in use, such that the text is read and the entries stand as
the substitution of those names says.  So no list that is spread keeps its marker, its elements are
found under their names, and a marker of the text that was not bound, or was bound to a list, is not
bound afterwards. -/
theorem spread_exact (f : Fragment α) :
    ∃ σ : Text → List Text, f.SpreadsOver σ f.spread ∧
      (∀ l ∈ f.params.listsToSpread,
        l.1 ∉ names (tokenize f.spread.sql) ∧
          (σ l.1).map (fun n => f.spread.params.get? (.name n)) =
            l.2.map fun d => some (.scalar d)) ∧
      ∀ m ∈ names (tokenize f.sql),
        (∀ v, f.params.get? (.name m) = some v → v.isList = true) →
          f.spread.params.get? (.name m) = none := by
  have h := f.spreadsOver_spread
  exact ⟨_, h, fun _ hl => ⟨h.not_mem_names hl, h.map_get?_names hl⟩,
    fun _ hm hv => h.get?_of_unbound hm hv⟩

/-- Two lists whose names meet: `a0` is the name of a marker, so the elements of `a` get an
underscore, and `a_0` is then no name for the element of `a_`.  The empty list is dropped. -/
theorem meeting_lists_spread :
    let f : Fragment Nat := ⟨"x IN (:a) AND y = :a0 AND z IN (:a_) AND w IN (:e)".toList,
      .ofList [(.name "a".toList, .list [some 1, none]), (.name "e".toList, .list []),
        (.name "a_".toList, .list [some 3])]⟩
    (("a".toList, [some 1, none]) ∈ f.params.listsToSpread ∧
      "e".toList ∈ names (tokenize f.sql) ∧
      ∀ v, f.params.get? (.name "e".toList) = some v → v.isList = true) ∧
    "a".toList ∉ names (tokenize f.spread.sql) ∧ f.spread.params.get? (.name "e".toList) = none ∧
      f.spread.sql = "x IN (:a_0,:a_1) AND y = :a0 AND z IN (:a__0) AND w IN (:e)".toList := by
  intro f
  have hlist : ("a".toList, [some 1, none]) ∈ f.params.listsToSpread := by decide
  have hmarker : "e".toList ∈ names (tokenize f.sql) := by decide
  have hempty : ∀ v, f.params.get? (.name "e".toList) = some v → v.isList = true := by
    have hget : f.params.get? (.name "e".toList) = some (.list []) := by decide
    rintro v hv
    rw [hget] at hv
    cases hv
    rfl
  obtain ⟨σ, -, hlists, hunbound⟩ := f.spread_exact
  exact ⟨⟨hlist, hmarker, hempty⟩, (hlists _ hlist).1, hunbound _ hmarker hempty, by decide⟩

end Fragment

end BoundQuery
