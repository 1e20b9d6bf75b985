/-
**Spreading lists: which marker becomes which, and where the values go.**

`Fragment.spread` decides for each binding in turn what becomes of it, and every list it spreads
takes names away from the lists behind it.  This module describes the outcome without the order of
the decisions: the names made up are distinct, none of them was in use, every list that can be
spread has a name for each of its elements, and what is bound afterwards is what was bound before,
with the elements of each list in the list's place.

Main definitions:

* `spreadOne`, `Spread.made` — what becomes of one binding, and the names made up for it;
* `Spread.namesFor` — the names that stand for a marker afterwards.

Main results:

* `spreads_cons` — **one decision after the other**: the names made up are in use from then on;
* `not_mem_made_spreads`, `nodup_keys_spreads` — names made up were free, and no key occurs twice;
* `mem_of_across`, `exists_across` — which lists are spread;
* `get?_spread_of_keep`, `get?_spread_of_across`, `get?_spread_of_unbound` — **what a key is bound
  to afterwards**;
* `tokenize_spread` — **the text is read again as it was meant**;
* `spread_of_no_list`, `spread_spread` — without lists, and a second time, nothing changes.
-/

import BoundQuery.Proofs.Substitution

set_option relaxedAutoImplicit false
set_option autoImplicit false

namespace BoundQuery

open Token

variable {α : Type}

/-! ### One binding -/

/-- What becomes of one binding when the names `taken` are in use. -/
def spreadOne (taken : List Text) : Key × Value α → Spread α
  | (k, .list ds) =>
      match k.canSpread ds.length with
      | none => .drop k ds.length
      | some n => .across n (freshElementNames taken n ds.length) ds
  | (k, v) => .keep k v

/-- The names made up for a binding. -/
def Spread.made : Spread α → List Text
  | across _ names _ => names
  | _ => []

theorem Key.canSpread_eq_some_iff {k : Key} {len : Nat} {n : Text} :
    k.canSpread len = some n ↔ k = .name n ∧ len ≠ 0 ∧ n.isDigits = false := by
  cases k with
  | index i => simp [canSpread]
  | name n' =>
      simp only [canSpread, Key.name.injEq]
      constructor
      · intro h
        split at h
        · cases h
        · next hno =>
            cases h
            simp only [Bool.or_eq_true, decide_eq_true_eq, not_or, Bool.not_eq_true] at hno
            exact ⟨rfl, hno⟩
      · rintro ⟨rfl, hlen, hd⟩
        simp [hlen, hd]

/-- **One decision after the other**: the names made up for a binding are in use from then on. -/
theorem spreads_cons (taken : List Text) (e : Key × Value α) (es : List (Key × Value α)) :
    spreads taken (e :: es) =
      spreadOne taken e :: spreads (taken ++ (spreadOne taken e).made) es := by
  obtain ⟨k, v⟩ := e
  cases v with
  | null => simp [spreads, spreadOne, Spread.made]
  | scalar d => simp [spreads, spreadOne, Spread.made]
  | list ds =>
      simp only [spreads, spreadOne]
      cases k.canSpread ds.length with
      | none => simp [Spread.made]
      | some n => rfl

theorem spreadOne_of_no_list (taken : List Text) {k : Key} {v : Value α} (h : v.isList = false) :
    spreadOne taken (k, v) = .keep k v := by
  cases v with
  | null => rfl
  | scalar d => rfl
  | list ds => cases h

/-- What can become of a binding: a value that is no list stays, a list that can be spread is spread
over fresh names, and any other list is dropped. -/
theorem spreadOne_cases (taken : List Text) (e : Key × Value α) :
    (e.2.isList = false ∧ spreadOne taken e = .keep e.1 e.2) ∨
    (∃ n ds, e = (.name n, .list ds) ∧ ds ≠ [] ∧ n.isDigits = false ∧
      spreadOne taken e = .across n (freshElementNames taken n ds.length) ds) ∨
    (∃ ds, e.2 = .list ds ∧ e.1.canSpread ds.length = none ∧
      spreadOne taken e = .drop e.1 ds.length) := by
  obtain ⟨k, v⟩ := e
  cases v with
  | null => exact .inl ⟨rfl, spreadOne_of_no_list taken rfl⟩
  | scalar d => exact .inl ⟨rfl, spreadOne_of_no_list taken rfl⟩
  | list ds =>
      cases hc : k.canSpread ds.length with
      | none => exact .inr (.inr ⟨ds, rfl, hc, by simp only [spreadOne, hc]⟩)
      | some n =>
          obtain ⟨rfl, hlen, hd⟩ := Key.canSpread_eq_some_iff.1 hc
          have hne : ds ≠ [] := fun h => hlen (by rw [h]; rfl)
          exact .inr (.inl ⟨n, ds, rfl, hne, hd, by simp only [spreadOne, hc]⟩)

/-! ### The names made up -/

/-- The names made up for one binding were free. -/
theorem not_mem_made_spreadOne {taken : List Text} {e : Key × Value α} {n : Text}
    (h : n ∈ (spreadOne taken e).made) : n ∉ taken := by
  rcases spreadOne_cases taken e with ⟨-, hs⟩ | ⟨m, ds, -, -, -, hs⟩ | ⟨ds, -, -, hs⟩
  · rw [hs] at h; cases h
  · rw [hs] at h; exact not_mem_of_mem_freshElementNames h
  · rw [hs] at h; cases h

/-- **The names made up were free.** -/
theorem not_mem_made_spreads {taken : List Text} {es : List (Key × Value α)} {n : Text}
    (h : n ∈ (spreads taken es).flatMap Spread.made) : n ∉ taken := by
  induction es generalizing taken with
  | nil => cases h
  | cons e es ih =>
      rw [spreads_cons, List.flatMap_cons, List.mem_append] at h
      rcases h with h | h
      · exact not_mem_made_spreadOne h
      · exact fun hn => ih h (List.mem_append_left _ hn)

/-- A name is made up for one list only. -/
theorem across_unique {taken : List Text} {es : List (Key × Value α)} {m m' : Text}
    {names names' : List Text} {ds ds' : List (Option α)}
    (h : Spread.across m names ds ∈ spreads taken es)
    (h' : Spread.across m' names' ds' ∈ spreads taken es) {n : Text} (hn : n ∈ names)
    (hn' : n ∈ names') : m = m' := by
  induction es generalizing taken with
  | nil => cases h
  | cons e es ih =>
      have hlater : ∀ {m₁ names₁ ds₁}, Spread.across m₁ names₁ ds₁ ∈
          spreads (taken ++ (spreadOne taken e).made) es → n ∈ names₁ →
          n ∉ (spreadOne taken e).made := by
        intro m₁ names₁ ds₁ hmem hn₁ hmade
        exact not_mem_made_spreads (List.mem_flatMap.2 ⟨_, hmem, hn₁⟩)
          (List.mem_append_right _ hmade)
      rw [spreads_cons] at h h'
      rcases List.mem_cons.1 h with heq | hmem
      · rcases List.mem_cons.1 h' with heq' | hmem'
        · rw [← heq] at heq'
          cases heq'
          rfl
        · exact absurd (by rw [← heq]; exact hn) (hlater hmem' hn')
      · rcases List.mem_cons.1 h' with heq' | hmem'
        · exact absurd (by rw [← heq']; exact hn') (hlater hmem hn)
        · exact ih hmem hmem'

/-! ### Which lists are spread -/

/-- A list that is spread was bound to its name, and there is a name for each element. -/
theorem mem_of_across {taken : List Text} {es : List (Key × Value α)} {m : Text} {names : List Text}
    {ds : List (Option α)} (h : Spread.across m names ds ∈ spreads taken es) :
    (Key.name m, Value.list ds) ∈ es ∧ ds ≠ [] ∧ m.isDigits = false ∧
      names.length = ds.length ∧ names.Nodup ∧
      (m.isName = true → ∀ n ∈ names, n.isName = true) := by
  induction es generalizing taken with
  | nil => cases h
  | cons e es ih =>
      rw [spreads_cons] at h
      rcases List.mem_cons.1 h with heq | hmem
      · rcases spreadOne_cases taken e with ⟨-, hs⟩ | ⟨m', ds', rfl, hne, hd, hs⟩ | ⟨ds', -, -, hs⟩
        · rw [hs] at heq; cases heq
        · rw [hs] at heq
          cases heq
          exact ⟨List.mem_cons_self, hne, hd, length_freshElementNames _ _ _,
            nodup_freshElementNames _ _ _, fun hm n hn => isName_of_mem_freshElementNames hm hn⟩
        · rw [hs] at heq; cases heq
      · obtain ⟨hes, hrest⟩ := ih hmem
        exact ⟨List.mem_cons_of_mem _ hes, hrest⟩

/-- Every list that can be spread is spread. -/
theorem exists_across {taken : List Text} {es : List (Key × Value α)} {m : Text}
    {ds : List (Option α)} (h : (Key.name m, Value.list ds) ∈ es) (hne : ds ≠ [])
    (hd : m.isDigits = false) : ∃ names, Spread.across m names ds ∈ spreads taken es := by
  induction es generalizing taken with
  | nil => cases h
  | cons e es ih =>
      rw [spreads_cons]
      rcases List.mem_cons.1 h with rfl | hmem
      · have hc : (Key.name m).canSpread ds.length = some m :=
          Key.canSpread_eq_some_iff.2 ⟨rfl, by simpa using hne, hd⟩
        refine ⟨freshElementNames taken m ds.length, ?_⟩
        simp only [spreadOne, hc]
        exact List.mem_cons_self
      · obtain ⟨names, hnames⟩ := ih hmem
        exact ⟨names, List.mem_cons_of_mem _ hnames⟩

/-! ### Keys and entries afterwards -/

/-- An entry that a binding becomes is the binding itself, which is no list, or has a name made
up. -/
theorem mem_entries_spreadOne {taken : List Text} {e x : Key × Value α}
    (h : x ∈ (spreadOne taken e).entries) :
    (x = e ∧ e.2.isList = false) ∨ ∃ n ∈ (spreadOne taken e).made, x.1 = .name n := by
  rcases spreadOne_cases taken e with ⟨hv, hs⟩ | ⟨m, ds, -, -, -, hs⟩ | ⟨ds, -, -, hs⟩
  · rw [hs, Spread.entries, List.mem_singleton] at h
    exact .inl ⟨h, hv⟩
  · rw [hs] at h ⊢
    obtain ⟨n, hn, hx⟩ := List.mem_map.1 (List.of_mem_zip (a := x.1) (b := x.2) h).1
    exact .inr ⟨n, hn, hx.symm⟩
  · rw [hs] at h
    cases h

theorem nodup_keys_spreadOne (taken : List Text) (e : Key × Value α) :
    (Assoc.keys (spreadOne taken e).entries).Nodup := by
  rcases spreadOne_cases taken e with ⟨-, hs⟩ | ⟨m, ds, -, -, -, hs⟩ | ⟨ds, -, -, hs⟩
  · rw [hs]; exact List.pairwise_singleton _ _
  · have hlen : (freshElementNames taken m ds.length).length = ds.length :=
      length_freshElementNames _ _ _
    rw [hs, Assoc.keys, Spread.entries, List.map_fst_zip (by simp [hlen])]
    refine List.pairwise_map.2 ((nodup_freshElementNames _ _ _).imp ?_)
    intro n n' hne h
    cases h
    exact hne rfl
  · rw [hs]; exact List.nodup_nil

/-- An entry after spreading was there before and is no list, or has a name made up. -/
theorem mem_entries_spreads {taken : List Text} {es : List (Key × Value α)} {x : Key × Value α}
    (h : x ∈ (spreads taken es).flatMap Spread.entries) :
    (x ∈ es ∧ x.2.isList = false) ∨
      ∃ n ∈ (spreads taken es).flatMap Spread.made, x.1 = .name n := by
  induction es generalizing taken with
  | nil => cases h
  | cons e es ih =>
      rw [spreads_cons] at h ⊢
      rw [List.flatMap_cons, List.mem_append] at h
      rcases h with h | h
      · rcases mem_entries_spreadOne h with ⟨rfl, hv⟩ | ⟨n, hn, hx⟩
        · exact .inl ⟨List.mem_cons_self, hv⟩
        · exact .inr ⟨n, List.mem_append_left _ hn, hx⟩
      · rcases ih h with ⟨hx, hv⟩ | ⟨n, hn, hx⟩
        · exact .inl ⟨List.mem_cons_of_mem _ hx, hv⟩
        · exact .inr ⟨n, List.mem_append_right _ hn, hx⟩

/-- A value that is no list stays under its key. -/
theorem mem_entries_of_keep {taken : List Text} {es : List (Key × Value α)} {x : Key × Value α}
    (h : x ∈ es) (hv : x.2.isList = false) : x ∈ (spreads taken es).flatMap Spread.entries := by
  induction es generalizing taken with
  | nil => cases h
  | cons e es ih =>
      rw [spreads_cons, List.flatMap_cons, List.mem_append]
      rcases List.mem_cons.1 h with rfl | h
      · left
        rcases spreadOne_cases taken x with ⟨-, hs⟩ | ⟨m, ds, rfl, -, -, -⟩ | ⟨ds, hx, -, -⟩
        · rw [hs]; exact List.mem_singleton_self _
        · cases hv
        · rw [hx] at hv; cases hv
      · exact .inr (ih h)

/-- **No key occurs twice after spreading**, if the names of the bindings are among those in use. -/
theorem nodup_keys_spreads {taken : List Text} {es : List (Key × Value α)}
    (hes : (Assoc.keys es).Nodup) (htaken : ∀ n, Key.name n ∈ Assoc.keys es → n ∈ taken) :
    (Assoc.keys ((spreads taken es).flatMap Spread.entries)).Nodup := by
  induction es generalizing taken with
  | nil => exact List.nodup_nil
  | cons e es ih =>
      obtain ⟨hnew, hnodup⟩ := List.nodup_cons.1 hes
      have hlater : ∀ n, Key.name n ∈ Assoc.keys es → n ∈ taken ++ (spreadOne taken e).made :=
        fun n hn => List.mem_append_left _ (htaken n (List.mem_cons_of_mem _ hn))
      have hrest := ih hnodup hlater
      rw [spreads_cons, List.flatMap_cons, Assoc.keys, List.map_append]
      refine List.nodup_append.2 ⟨nodup_keys_spreadOne taken e, hrest, ?_⟩
      rintro _ ha _ hb rfl
      obtain ⟨x, hx, rfl⟩ := List.mem_map.1 ha
      obtain ⟨y, hy, hxy⟩ := List.mem_map.1 hb
      rcases mem_entries_spreadOne hx with ⟨rfl, -⟩ | ⟨n, hn, hxn⟩
      · rcases mem_entries_spreads hy with ⟨hyes, -⟩ | ⟨n, hn, hyn⟩
        · exact hnew (hxy ▸ List.mem_map_of_mem hyes)
        · rw [hxy] at hyn
          exact not_mem_made_spreads hn (List.mem_append_left _ (htaken n (by rw [← hyn]; simp)))
      · rw [hxn] at hxy
        rcases mem_entries_spreads hy with ⟨hyes, -⟩ | ⟨n', hn', hyn⟩
        · refine not_mem_made_spreadOne hn (htaken n (List.mem_cons_of_mem _ ?_))
          exact hxy ▸ List.mem_map_of_mem hyes
        · rw [hyn] at hxy
          cases hxy
          exact not_mem_made_spreads hn' (List.mem_append_right _ hn)

/-! ### What a key is bound to afterwards -/

namespace Fragment

/-- The names in use when the lists of a fragment are spread: those of bindings and of markers. -/
def taken (f : Fragment α) : List Text := f.params.names ++ names (tokenize f.sql)

/-- What becomes of each binding of a fragment. -/
def plan (f : Fragment α) : List (Spread α) := spreads f.taken f.params.entries

theorem mem_taken_of_mem_keys {f : Fragment α} {n : Text} (h : Key.name n ∈ f.params.keys) :
    n ∈ f.taken :=
  List.mem_append_left _ (List.mem_filterMap.2 ⟨_, h, rfl⟩)

/-- The entries after spreading, in order: nothing is overwritten. -/
theorem entries_spread (f : Fragment α) :
    f.spread.params.entries = f.plan.flatMap Spread.entries :=
  Bindings.entries_ofList (nodup_keys_spreads f.params.nodup fun _ => mem_taken_of_mem_keys)

theorem get?_spread_iff (f : Fragment α) (k : Key) (v : Value α) :
    f.spread.params.get? k = some v ↔ (k, v) ∈ f.plan.flatMap Spread.entries := by
  rw [Bindings.get?_eq_some_iff, entries_spread]

/-- A value that is no list is found under its key. -/
theorem get?_spread_of_keep {f : Fragment α} {k : Key} {v : Value α} (h : f.params.get? k = some v)
    (hv : v.isList = false) : f.spread.params.get? k = some v :=
  (f.get?_spread_iff k v).2 (mem_entries_of_keep ((Bindings.get?_eq_some_iff _ k v).1 h) hv)

/-- Each element of a list that is spread is found under its name. -/
theorem get?_spread_of_across {f : Fragment α} {m : Text} {names : List Text} {ds : List (Option α)}
    (h : Spread.across m names ds ∈ f.plan) {i : Nat} (hn : i < names.length) (hd : i < ds.length) :
    f.spread.params.get? (.name names[i]) = some (.scalar ds[i]) := by
  refine (f.get?_spread_iff _ _).2 (List.mem_flatMap.2 ⟨_, h, ?_⟩)
  rw [Spread.entries, List.mem_iff_getElem]
  have hi : i < ((names.map Key.name).zip (ds.map Value.scalar)).length := by
    simp only [List.length_zip, List.length_map]
    omega
  exact ⟨i, hi, by simp⟩

/-- A marker that was not bound, or was bound to a list, is bound no more. -/
theorem get?_spread_of_unbound {f : Fragment α} {m : Text} (hm : m ∈ f.taken)
    (h : ∀ v, f.params.get? (.name m) = some v → v.isList = true) :
    f.spread.params.get? (.name m) = none := by
  cases hv : f.spread.params.get? (.name m) with
  | none => rfl
  | some v =>
      rcases mem_entries_spreads ((f.get?_spread_iff _ v).1 hv) with ⟨hes, hlist⟩ | ⟨n, hn, hmn⟩
      · rw [h v ((Bindings.get?_eq_some_iff _ _ v).2 hes)] at hlist
        cases hlist
      · cases hmn
        exact absurd hm (not_mem_made_spreads hn)

end Fragment

/-! ### The text afterwards -/

/-- The names that stand for a marker when lists are spread; a marker that stays stands for
itself. -/
def Spread.namesFor (plan : List (Spread α)) (m : Text) : List Text :=
  (plan.findSome? (namesFor? m)).getD [m]

theorem Spread.namesFor?_eq_some {m : Text} {names : List Text} {s : Spread α}
    (h : s.namesFor? m = some names) : ∃ ds, s = .across m names ds := by
  cases s with
  | keep k v => cases h
  | drop k len => cases h
  | across n ns ds =>
      simp only [namesFor?] at h
      split at h
      · next hn =>
          cases h
          exact ⟨ds, by rw [hn]⟩
      · cases h

/-- Spreading writes the markers of these names with commas in between. -/
theorem Spread.write_eq (plan : List (Spread α)) (t : Token) :
    Spread.write plan t = Token.write (t.substitute (Spread.namesFor plan)) := by
  cases t with
  | text s => simp [Spread.write, Token.substitute, written]
  | positional => rfl
  | named n =>
      rw [Token.substitute, Token.write, flatMap_commaMarkers fun _ => rfl]
      simp only [Spread.write, Spread.namesFor]
      cases plan.findSome? (namesFor? n) with
      | none => simp [written]
      | some names => rfl

namespace Fragment

/-- **Which names stand for a marker**: one for each element, if the marker is bound to a list that
is spread, and otherwise the marker's own. -/
theorem namesFor_cases (f : Fragment α) (m : Text) :
    (∃ names ds, f.params.get? (.name m) = some (.list ds) ∧ Spread.across m names ds ∈ f.plan ∧
      Spread.namesFor f.plan m = names) ∨
    ((∀ ds, f.params.get? (.name m) = some (.list ds) → ds = [] ∨ m.isDigits = true) ∧
      Spread.namesFor f.plan m = [m]) := by
  cases hfind : f.plan.findSome? (Spread.namesFor? m) with
  | some names =>
      left
      obtain ⟨s, hs, hnames⟩ := List.exists_of_findSome?_eq_some hfind
      obtain ⟨ds, rfl⟩ := Spread.namesFor?_eq_some hnames
      refine ⟨names, ds, ?_, hs, by rw [Spread.namesFor, hfind]; rfl⟩
      exact (Bindings.get?_eq_some_iff _ _ _).2 (mem_of_across hs).1
  | none =>
      right
      refine ⟨fun ds hds => ?_, by rw [Spread.namesFor, hfind]; rfl⟩
      by_cases hne : ds = []
      · exact .inl hne
      · cases hd : m.isDigits with
        | true => exact .inr rfl
        | false =>
            have hmem := (Bindings.get?_eq_some_iff _ _ _).1 hds
            obtain ⟨names, hs⟩ := exists_across hmem hne hd
            have := List.findSome?_eq_none_iff.1 hfind _ hs
            simp [Spread.namesFor?] at this

theorem namesFor_ne_nil (f : Fragment α) (m : Text) : Spread.namesFor f.plan m ≠ [] := by
  rcases f.namesFor_cases m with ⟨names, ds, -, hs, hnames⟩ | ⟨-, hself⟩
  · obtain ⟨-, hne, -, hlen, -, -⟩ := mem_of_across hs
    rw [hnames]
    intro h
    rw [h] at hlen
    exact hne (List.length_eq_zero_iff.1 hlen.symm)
  · rw [hself]
    exact List.cons_ne_nil _ _

theorem isName_namesFor (f : Fragment α) {m : Text} (hm : m.isName = true) :
    ∀ n ∈ Spread.namesFor f.plan m, n.isName = true := by
  rcases f.namesFor_cases m with ⟨names, ds, -, hs, hnames⟩ | ⟨-, hself⟩
  · obtain ⟨-, -, -, -, -, hname⟩ := mem_of_across hs
    rw [hnames]
    exact hname hm
  · rw [hself]
    simpa using hm

/-- **The text after spreading is read again as it was meant.** -/
theorem tokenize_spread (f : Fragment α) :
    tokenize f.spread.sql =
      merged ((tokenize f.sql).flatMap (Token.substitute (Spread.namesFor f.plan))) := by
  have hsql : f.spread.sql =
      Token.write ((tokenize f.sql).flatMap (Token.substitute (Spread.namesFor f.plan))) := by
    rw [Token.write, List.flatMap_assoc]
    exact congrArg (List.flatMap · (tokenize f.sql)) (funext (Spread.write_eq f.plan))
  have hread := (readable_tokenize f.sql).substitute fun m hm =>
    ⟨f.namesFor_ne_nil m, f.isName_namesFor hm⟩
  rw [hsql]
  exact hread.scan_write

/-- A text with a named marker has one after spreading. -/
theorem hasNamed_spread_of_mem {f : Fragment α} {m : Text} (hm : m ∈ names (tokenize f.sql)) :
    hasNamed f.spread.sql = true := by
  have hnames : names (tokenize f.spread.sql) ≠ [] := by
    rw [tokenize_spread, names_merged, names_flatMap_substitute]
    obtain ⟨n, hn⟩ := List.exists_mem_of_ne_nil _ (f.namesFor_ne_nil m)
    exact List.ne_nil_of_mem (List.mem_flatMap.2 ⟨m, hm, hn⟩)
  simpa [hasNamed] using hnames

end Fragment

/-! ### Nothing to spread -/

theorem spreads_of_no_list {taken : List Text} {es : List (Key × Value α)}
    (h : ∀ e ∈ es, e.2.isList = false) :
    spreads taken es = es.map fun e => Spread.keep e.1 e.2 := by
  induction es generalizing taken with
  | nil => rfl
  | cons e es ih =>
      have hrest := fun x hx => h x (List.mem_cons_of_mem e hx)
      rw [spreads_cons, ih hrest, List.map_cons]
      rcases spreadOne_cases taken e with ⟨-, hs⟩ | ⟨n, ds, rfl, -⟩ | ⟨ds, hds, -⟩
      · rw [hs]
      · cases h _ List.mem_cons_self
      · have hlist := h e List.mem_cons_self
        rw [hds] at hlist
        cases hlist

/-- **Without lists, spreading changes nothing.** -/
theorem Fragment.spread_of_no_list {f : Fragment α} (h : f.params.hasList = false) :
    f.spread = f := by
  have hno : ∀ e ∈ f.params.entries, e.2.isList = false := by
    simpa only [Bindings.hasList, List.any_eq_false, Bool.not_eq_true] using h
  have hplan : f.plan = f.params.entries.map fun e => Spread.keep e.1 e.2 := spreads_of_no_list hno
  have hwrite : ∀ t, Spread.write f.plan t = t.written := by
    intro t
    cases t with
    | text s => rfl
    | positional => rfl
    | named n =>
        have hnone : f.plan.findSome? (Spread.namesFor? n) = none := by
          rw [hplan, List.findSome?_eq_none_iff]
          intro s hs
          obtain ⟨e, -, rfl⟩ := List.mem_map.1 hs
          rfl
        simp only [Spread.write, hnone, written]
  have hsql : f.spread.sql = f.sql := by
    refine Eq.trans ?_ (write_tokenize f.sql)
    exact congrArg (List.flatMap · (tokenize f.sql)) (funext hwrite)
  have hparams : f.spread.params = f.params := by
    refine Bindings.ext ?_
    rw [entries_spread, hplan, List.flatMap_map]
    exact List.flatMap_singleton' _
  obtain ⟨sql, params⟩ := f
  exact (Fragment.mk.injEq _ _ _ _).mpr ⟨hsql, hparams⟩

/-- What has been spread needs no spreading again. -/
theorem Fragment.spread_spread (f : Fragment α) : f.spread.spread = f.spread :=
  spread_of_no_list f.hasList_spread

end BoundQuery
