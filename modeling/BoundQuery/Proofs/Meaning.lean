/-
**What is sent for a text and its bindings, said directly.**

A statement is built in two passes over names the caller never sees: lists are spread over names
that are made up, and the markers that result are numbered by name.  The direct account needs no
name at all.  A marker has the data of its binding: the elements of a list, one datum for any other
value.  Each datum has a *place*, the marker with the position of the datum, and the places that
occur in the text are numbered as they appear.  What is sent is the text with the numbers of its
places, and the data of the places in the order of their numbers.

The two accounts agree because the names made up are the places in another guise: different places
have different names, whatever names the search came up with.

Main definitions:

* `Bindings.elements` — the data of a marker;
* `Bindings.placesAt`, `Bindings.places` — the places of a marker, and those of a text by number;
* `Bindings.writePlaces` — the text of a token with its places by number.

Main results:

* `Bindings.nodup_places`, `Bindings.mem_places_iff` — each place that occurs has one number;
* `sent_eq_direct` — **what is sent is the direct account**.
-/

import Mathlib.Data.List.Nodup
import BoundQuery.Statement
import BoundQuery.Proofs.Spreading

set_option relaxedAutoImplicit false
set_option autoImplicit false

namespace BoundQuery

open Token

variable {α : Type}

/-! ### The direct account -/

namespace Bindings

/-- The data of a marker.  A list under a name that is all digits has none to send. -/
def elements (b : Bindings α) (m : Text) : List (Option α) :=
  match b.get? (.name m) with
  | none => []
  | some .null => [none]
  | some (.scalar d) => [d]
  | some (.list ds) => if m.isDigits then [] else ds

/-- The places of a marker: the marker with the position of each of its data. -/
def placesAt (b : Bindings α) (m : Text) : List (Text × Nat) :=
  (List.range (b.elements m).length).map fun j => (m, j)

/-- The places of a text in the order of their first appearances. -/
def places (b : Bindings α) (sql : Text) : List (Text × Nat) :=
  firsts ((Token.names (tokenize sql)).flatMap b.placesAt)

/-- The datum of a place. -/
def datumAt (b : Bindings α) (p : Text × Nat) : Option (Option α) := (b.elements p.1)[p.2]?

/-- The text of a token when places have numbers: a marker without data stays as written, and any
other is written as the numbers of its places. -/
def writePlaces (b : Bindings α) (numbered : List (Text × Nat)) : Token → Text
  | .named m =>
      if (b.elements m).isEmpty then ':' :: m
      else Text.join [','] ((b.placesAt m).map fun p => '$' :: decimal (numbered.idxOf p + 1))
  | t => t.written

/-- No place has two numbers. -/
theorem nodup_places (b : Bindings α) (sql : Text) : (b.places sql).Nodup := nodup_firsts _

/-- The places that have numbers are those of the data of the text's markers. -/
theorem mem_places_iff (b : Bindings α) (sql : Text) (p : Text × Nat) :
    p ∈ b.places sql ↔ p.1 ∈ Token.names (tokenize sql) ∧ p.2 < (b.elements p.1).length := by
  obtain ⟨m, j⟩ := p
  simp only [places, mem_firsts, List.mem_flatMap, placesAt, List.mem_map, List.mem_range]
  constructor
  · rintro ⟨m', hm', j', hj', h⟩
    cases h
    exact ⟨hm', hj'⟩
  · rintro ⟨hm, hj⟩
    exact ⟨m, hm, j, hj, rfl⟩

end Bindings

/-! ### Lists with renamed elements -/

/-- First appearances after a renaming that keeps elements apart. -/
theorem firsts_map {κ ι : Type} [DecidableEq κ] [DecidableEq ι] {f : κ → ι} {xs : List κ}
    (hf : ∀ x ∈ xs, ∀ y ∈ xs, f x = f y → x = y) :
    firsts (xs.map f) = (firsts xs).map f := by
  induction xs with
  | nil => rfl
  | cons x xs ih =>
      have htail := ih fun y hy z hz =>
        hf y (List.mem_cons_of_mem _ hy) z (List.mem_cons_of_mem _ hz)
      simp only [List.map_cons, firsts, htail, List.filter_map]
      congr 2
      refine List.filter_congr fun y hy => ?_
      have hiff : f y = f x ↔ y = x :=
        ⟨hf y (List.mem_cons_of_mem _ (mem_firsts.1 hy)) x List.mem_cons_self, congrArg f⟩
      simp [hiff]

/-- Nothing is left out where a function always has a value. -/
theorem map_some_filterMap {κ ι : Type} {f : κ → Option ι} {xs : List κ}
    (h : ∀ x ∈ xs, (f x).isSome = true) : (xs.filterMap f).map some = xs.map f := by
  induction xs with
  | nil => rfl
  | cons x xs ih =>
      obtain ⟨y, hy⟩ := Option.isSome_iff_exists.1 (h x List.mem_cons_self)
      have hrest := ih fun z hz => h z (List.mem_cons_of_mem _ hz)
      rw [List.filterMap_cons_some hy, List.map_cons, List.map_cons, hy, hrest]

section Renamed

variable {κ ι : Type} [BEq κ] [LawfulBEq κ] [BEq ι] [LawfulBEq ι]

/-- The index of a renamed element, if the renaming keeps elements apart. -/
theorem idxOf?_map {f : κ → ι} {xs : List κ} {x : κ} (hf : ∀ y ∈ xs, f y = f x → y = x) :
    (xs.map f).idxOf? (f x) = xs.idxOf? x := by
  induction xs with
  | nil => rfl
  | cons y xs ih =>
      have hrest := ih fun z hz => hf z (List.mem_cons_of_mem y hz)
      have hbeq : (f y == f x) = (y == x) := by
        rw [Bool.eq_iff_iff, beq_iff_eq, beq_iff_eq]
        exact ⟨hf y List.mem_cons_self, congrArg f⟩
      rw [List.map_cons, List.idxOf?_cons, List.idxOf?_cons, hrest, hbeq]

theorem idxOf_map {f : κ → ι} {xs : List κ} {x : κ} (hf : ∀ y ∈ xs, f y = f x → y = x) :
    (xs.map f).idxOf (f x) = xs.idxOf x := by
  rw [List.idxOf_eq_getD_idxOf?, List.idxOf_eq_getD_idxOf?, idxOf?_map hf, List.length_map]

theorem idxOf?_of_mem {xs : List κ} {x : κ} (hx : x ∈ xs) : xs.idxOf? x = some (xs.idxOf x) := by
  cases h : xs.idxOf? x with
  | none => exact absurd hx (List.idxOf?_eq_none_iff.1 h)
  | some i => rw [List.idxOf_eq_getD_idxOf?, h, Option.getD_some]

end Renamed

/-- The number of a renamed element, if the renaming keeps elements apart. -/
theorem position?_map {κ : Type} [BEq κ] [LawfulBEq κ] {f : κ → Text} {xs : List κ}
    (hf : ∀ x ∈ xs, ∀ y ∈ xs, f x = f y → x = y) {x : κ} (hx : x ∈ xs) :
    position? (xs.map f) (f x) = some (xs.idxOf x + 1) := by
  rw [position?, idxOf?_map fun y hy => hf y hy x hx, idxOf?_of_mem hx]
  rfl

theorem position?_eq_none {ns : List Text} {n : Text} (h : n ∉ ns) : position? ns n = none := by
  rw [position?, List.idxOf?_eq_none_iff.2 h]
  rfl

/-! ### Values by number -/

namespace Statement

/-- The value of a number is the datum of its name. -/
theorem getElem?_values_sent {s : Statement α} {j : Nat} {n : Text}
    (h : s.sent.names[j]? = some n) : s.sent.values[j]? = s.params.datum? n := by
  have hsome : ∀ m ∈ s.boundNames, (s.params.datum? m).isSome = true :=
    fun m hm => isSome_datum?_of_mem hm
  have hvalues : s.sent.values.map some = s.sent.names.map s.params.datum? :=
    map_some_filterMap hsome
  obtain ⟨x, hx⟩ := Option.isSome_iff_exists.1 (hsome n (List.mem_of_getElem? h))
  have hat := congrArg (fun l : List (Option (Option α)) => l[j]?) hvalues
  simp only [List.getElem?_map, h, Option.map_some, hx] at hat
  cases hv : s.sent.values[j]? with
  | none => rw [hv] at hat; cases hat
  | some y =>
      rw [hv, Option.map_some, Option.some.injEq] at hat
      rw [hx, hat]

end Statement

/-! ### The names made up are the places -/

variable (sql : Text) (b : Bindings α)

/-- The names that stand for a marker of the text `sql` when the lists of `b` are spread. -/
def sharedNames (m : Text) : List Text := Spread.namesFor (Fragment.plan ⟨sql, b⟩) m

/-- The name of a place. -/
def placeName (p : Text × Nat) : Text := (sharedNames sql b p.1).getD p.2 []

variable {sql b}

/-- **A marker afterwards**: without data it stays and is not bound, and otherwise the names that
stand for it are bound to its data in order. -/
theorem sharedNames_cases {m : Text} (hm : m ∈ Token.names (tokenize sql)) :
    (b.elements m = [] ∧ sharedNames sql b m = [m] ∧
      (Fragment.spread ⟨sql, b⟩).params.datum? m = none) ∨
    (b.elements m ≠ [] ∧
      (sharedNames sql b m).map (Fragment.spread ⟨sql, b⟩).params.datum? =
        (b.elements m).map some) := by
  have htaken : m ∈ Fragment.taken ⟨sql, b⟩ := List.mem_append_right _ hm
  rcases Fragment.namesFor_cases ⟨sql, b⟩ m with ⟨names, ds, hget, hs, hnames⟩ | ⟨hnone, hself⟩
  · right
    obtain ⟨-, hne, hd, hlen, -, -⟩ := mem_of_across hs
    have hel : b.elements m = ds := by simp [Bindings.elements, show b.get? _ = _ from hget, hd]
    refine ⟨by rw [hel]; exact hne, ?_⟩
    rw [hel, sharedNames, hnames]
    refine List.ext_getElem (by simp [hlen]) fun i h₁ h₂ => ?_
    have hn : i < names.length := by simpa using h₁
    have hd : i < ds.length := by simpa using h₂
    simp [Bindings.datum?, Fragment.get?_spread_of_across hs hn hd, Value.datum?]
  · have hunbound : (∀ v, b.get? (.name m) = some v → v.isList = true) →
        (Fragment.spread ⟨sql, b⟩).params.datum? m = none := fun h => by
      rw [Bindings.datum?, Fragment.get?_spread_of_unbound htaken h]
      rfl
    have hbound : ∀ (v : Value α) (d : Option α), b.get? (.name m) = some v → v.isList = false →
        v.datum? = some d → b.elements m = [d] →
        (sharedNames sql b m).map (Fragment.spread ⟨sql, b⟩).params.datum? =
          (b.elements m).map some := by
      intro v d hv hl hd hel
      have hget := Fragment.get?_spread_of_keep (f := ⟨sql, b⟩) hv hl
      rw [hel, sharedNames, hself, List.map_singleton, List.map_singleton, Bindings.datum?, hget,
        Option.bind_some, hd]
    cases hget : b.get? (.name m) with
    | none =>
        have hel : b.elements m = [] := by simp [Bindings.elements, hget]
        exact .inl ⟨hel, hself, hunbound fun v hv => by rw [hget] at hv; cases hv⟩
    | some v =>
        cases v with
        | list ds =>
            have hel : b.elements m = [] := by
              simp only [Bindings.elements, hget]
              rcases hnone ds hget with rfl | hd
              · simp
              · simp [hd]
            refine .inl ⟨hel, hself, hunbound fun v hv => ?_⟩
            rw [hget] at hv
            cases hv
            rfl
        | null =>
            have hel : b.elements m = [none] := by simp [Bindings.elements, hget]
            exact .inr ⟨by rw [hel]; simp, hbound .null none hget rfl rfl hel⟩
        | scalar d =>
            have hel : b.elements m = [d] := by simp [Bindings.elements, hget]
            exact .inr ⟨by rw [hel]; simp, hbound (.scalar d) d hget rfl rfl hel⟩

/-- No name stands for two markers. -/
theorem eq_of_mem_sharedNames {m m' n : Text} (hm : m ∈ Token.names (tokenize sql))
    (hm' : m' ∈ Token.names (tokenize sql)) (h : n ∈ sharedNames sql b m)
    (h' : n ∈ sharedNames sql b m') : m = m' := by
  have htaken : ∀ {x}, x ∈ Token.names (tokenize sql) → x ∈ Fragment.taken ⟨sql, b⟩ :=
    fun hx => List.mem_append_right _ hx
  have hmade : ∀ {x names ds}, Spread.across x names ds ∈ Fragment.plan ⟨sql, b⟩ →
      n ∈ names → n ∉ Fragment.taken ⟨sql, b⟩ := fun hs hn =>
    not_mem_made_spreads (List.mem_flatMap.2 ⟨_, hs, hn⟩)
  simp only [sharedNames] at h h'
  rcases Fragment.namesFor_cases ⟨sql, b⟩ m with ⟨ns, ds, -, hs, hnames⟩ | ⟨-, hself⟩
  · rw [hnames] at h
    rcases Fragment.namesFor_cases ⟨sql, b⟩ m' with ⟨ns', ds', -, hs', hnames'⟩ | ⟨-, hself'⟩
    · rw [hnames'] at h'
      exact across_unique hs hs' h h'
    · rw [hself', List.mem_singleton] at h'
      exact absurd (h' ▸ htaken hm') (hmade hs h)
  · rw [hself, List.mem_singleton] at h
    rcases Fragment.namesFor_cases ⟨sql, b⟩ m' with ⟨ns', ds', -, hs', hnames'⟩ | ⟨-, hself'⟩
    · rw [hnames'] at h'
      exact absurd (h ▸ htaken hm) (hmade hs' h')
    · rw [hself', List.mem_singleton] at h'
      rw [← h, h']

theorem nodup_sharedNames (m : Text) : (sharedNames sql b m).Nodup := by
  rw [sharedNames]
  rcases Fragment.namesFor_cases ⟨sql, b⟩ m with ⟨ns, ds, -, hs, hnames⟩ | ⟨-, hself⟩
  · obtain ⟨-, -, -, -, hnodup, -⟩ := mem_of_across hs
    rw [hnames]
    exact hnodup
  · rw [hself]
    exact List.pairwise_singleton _ _

theorem lt_of_mem_placesAt {m : Text} {p : Text × Nat} (h : p ∈ b.placesAt m) :
    p.1 = m ∧ p.2 < (b.elements m).length := by
  obtain ⟨j, hj, rfl⟩ := List.mem_map.1 h
  exact ⟨rfl, List.mem_range.1 hj⟩

/-- The names that stand for a marker with data are the names of its places. -/
theorem sharedNames_eq_map_placeName {m : Text} (hm : m ∈ Token.names (tokenize sql))
    (hne : b.elements m ≠ []) : sharedNames sql b m = (b.placesAt m).map (placeName sql b) := by
  rcases sharedNames_cases hm with ⟨hel, -, -⟩ | ⟨-, hdata⟩
  · exact absurd hel hne
  · have hlen : (sharedNames sql b m).length = (b.elements m).length := by
      simpa using congrArg List.length hdata
    rw [Bindings.placesAt, List.map_map]
    refine List.ext_getElem (by simp [hlen]) fun j h₁ h₂ => ?_
    simp [placeName, List.getElem?_eq_getElem h₁]

/-- The datum of a place is what its name is bound to. -/
theorem datum?_placeName {m : Text} (hm : m ∈ Token.names (tokenize sql)) {p : Text × Nat}
    (hp : p ∈ b.placesAt m) :
    (Fragment.spread ⟨sql, b⟩).params.datum? (placeName sql b p) = b.datumAt p ∧
      (b.datumAt p).isSome = true := by
  obtain ⟨rfl, hlt⟩ := lt_of_mem_placesAt hp
  rcases sharedNames_cases hm with ⟨hel, -, -⟩ | ⟨-, hdata⟩
  · rw [hel] at hlt
    exact absurd hlt (Nat.not_lt_zero _)
  · have hlen : (sharedNames sql b p.1).length = (b.elements p.1).length := by
      simpa using congrArg List.length hdata
    have hget := congrArg (fun l => l[p.2]?) hdata
    simp only [List.getElem?_map, List.getElem?_eq_getElem hlt,
      List.getElem?_eq_getElem (hlen ▸ hlt), Option.map_some, Option.some.injEq] at hget
    simp only [placeName, Bindings.datumAt, List.getD_eq_getElem?_getD,
      List.getElem?_eq_getElem hlt, List.getElem?_eq_getElem (hlen ▸ hlt), Option.getD_some, hget]
    exact ⟨trivial, rfl⟩

/-- **Different places have different names.** -/
theorem placeName_inj {m m' : Text} (hm : m ∈ Token.names (tokenize sql))
    (hm' : m' ∈ Token.names (tokenize sql)) {p p' : Text × Nat} (hp : p ∈ b.placesAt m)
    (hp' : p' ∈ b.placesAt m') (h : placeName sql b p = placeName sql b p') : p = p' := by
  have hne : ∀ {x : Text} {q : Text × Nat}, q ∈ b.placesAt x → b.elements x ≠ [] := by
    intro x q hq hel
    have := (lt_of_mem_placesAt hq).2
    rw [hel] at this
    exact Nat.not_lt_zero _ this
  have hmem : ∀ {x : Text} {q : Text × Nat}, x ∈ Token.names (tokenize sql) → q ∈ b.placesAt x →
      placeName sql b q ∈ sharedNames sql b x := by
    intro x q hx hq
    rw [sharedNames_eq_map_placeName hx (hne hq)]
    exact List.mem_map_of_mem hq
  have hmm : m = m' := eq_of_mem_sharedNames hm hm' (hmem hm hp) (h ▸ hmem hm' hp')
  subst hmm
  -- both are names of one marker, and those are distinct
  have hnodup : ((b.placesAt m).map (placeName sql b)).Nodup := by
    rw [← sharedNames_eq_map_placeName hm (hne hp)]
    exact nodup_sharedNames m
  exact List.inj_on_of_nodup_map hnodup hp hp' h

/-! ### The two accounts agree -/

/-- The names of a marker's places, with the name of a marker without data left out. -/
theorem filter_sharedNames {m : Text} (hm : m ∈ Token.names (tokenize sql)) :
    ((sharedNames sql b m).filter fun n =>
        ((Fragment.spread ⟨sql, b⟩).params.datum? n).isSome) =
      (b.placesAt m).map (placeName sql b) := by
  rcases sharedNames_cases hm with ⟨hel, hself, hnone⟩ | ⟨hne, -⟩
  · rw [hself, Bindings.placesAt, hel]
    simp [hnone]
  · rw [sharedNames_eq_map_placeName hm hne, List.filter_eq_self]
    intro n hn
    obtain ⟨p, hp, rfl⟩ := List.mem_map.1 hn
    obtain ⟨hdatum, hsome⟩ := datum?_placeName hm hp
    rw [hdatum, hsome]

theorem eq_of_placeName_eq {p p' : Text × Nat}
    (hp : p ∈ (Token.names (tokenize sql)).flatMap b.placesAt)
    (hp' : p' ∈ (Token.names (tokenize sql)).flatMap b.placesAt)
    (h : placeName sql b p = placeName sql b p') : p = p' := by
  obtain ⟨m, hm, hpm⟩ := List.mem_flatMap.1 hp
  obtain ⟨m', hm', hpm'⟩ := List.mem_flatMap.1 hp'
  exact placeName_inj hm hm' hpm hpm' h

/-- **The bound names of the statement are the names of the places**, in the order of numbers. -/
theorem boundNames_ofFragment :
    (Statement.ofFragment ⟨sql, b⟩).boundNames = (b.places sql).map (placeName sql b) := by
  have hnames : Token.names (tokenize (Fragment.spread ⟨sql, b⟩).sql) =
      (Token.names (tokenize sql)).flatMap (sharedNames sql b) := by
    rw [Fragment.tokenize_spread, names_merged, names_flatMap_substitute]
    rfl
  have hfilter : ((Token.names (tokenize sql)).flatMap (sharedNames sql b)).filter
        (fun n => ((Fragment.spread ⟨sql, b⟩).params.datum? n).isSome) =
      ((Token.names (tokenize sql)).flatMap b.placesAt).map (placeName sql b) := by
    rw [List.filter_flatMap, List.map_flatMap]
    exact List.flatMap_congr fun m hm => filter_sharedNames hm
  rw [Statement.boundNames, Bindings.places, ← firsts_map fun p hp p' hp' =>
    eq_of_placeName_eq hp hp', ← hfilter, ← hnames]
  rfl

/-- The text of a marker's names when the bound names have numbers. -/
theorem flatMap_substitute_writeNumbered {t : Token} (ht : t ∈ tokenize sql) :
    (t.substitute (sharedNames sql b)).flatMap
        (Token.writeNumbered (Statement.ofFragment ⟨sql, b⟩).boundNames) =
      b.writePlaces (b.places sql) t := by
  cases t with
  | text s => simp [Token.substitute, Token.writeNumbered, Bindings.writePlaces, written]
  | positional => simp [Token.substitute, Token.writeNumbered, Bindings.writePlaces]
  | named m =>
      have hm : m ∈ Token.names (tokenize sql) := List.mem_filterMap.2 ⟨_, ht, rfl⟩
      rw [Token.substitute, flatMap_commaMarkers fun _ => rfl, Bindings.writePlaces]
      rcases sharedNames_cases hm with ⟨hel, hself, hnone⟩ | ⟨hne, -⟩
      · have hunbound : m ∉ (Statement.ofFragment ⟨sql, b⟩).boundNames := fun hmem => by
          have hsome := Statement.isSome_datum?_of_mem hmem
          change ((Fragment.spread ⟨sql, b⟩).params.datum? m).isSome = true at hsome
          rw [hnone] at hsome
          cases hsome
        rw [hself, hel]
        simp [Token.writeNumbered, position?_eq_none hunbound]
      · rw [sharedNames_eq_map_placeName hm hne, List.map_map, if_neg (by simpa using hne)]
        refine congrArg (Text.join [',']) (List.map_congr_left fun p hp => ?_)
        obtain ⟨rfl, hlt⟩ := lt_of_mem_placesAt hp
        have hmem : p ∈ b.places sql := (b.mem_places_iff sql p).2 ⟨hm, hlt⟩
        have hinj : ∀ x ∈ b.places sql, ∀ y ∈ b.places sql,
            placeName sql b x = placeName sql b y → x = y :=
          fun x hx y hy => eq_of_placeName_eq (mem_firsts.1 hx) (mem_firsts.1 hy)
        have hnumber := position?_map hinj hmem
        rw [Function.comp_apply, Token.writeNumbered, boundNames_ofFragment, hnumber]

variable (sql b)

/-- The text that is sent has the numbers of its places. -/
theorem sql_sent_ofFragment :
    (Statement.ofFragment ⟨sql, b⟩).sent.sql =
      (tokenize sql).flatMap (b.writePlaces (b.places sql)) := by
  have hmerged : (merged ((tokenize sql).flatMap (Token.substitute (sharedNames sql b)))).flatMap
        (Token.writeNumbered (Statement.ofFragment ⟨sql, b⟩).boundNames) =
      (tokenize sql).flatMap (b.writePlaces (b.places sql)) := by
    rw [flatMap_merged fun _ => rfl, List.flatMap_assoc]
    exact List.flatMap_congr fun t ht => flatMap_substitute_writeNumbered ht
  rw [← hmerged]
  exact congrArg (List.flatMap _) (Fragment.tokenize_spread ⟨sql, b⟩)

/-- The values that are sent are the data of the places. -/
theorem values_sent_ofFragment :
    (Statement.ofFragment ⟨sql, b⟩).sent.values.map some = (b.places sql).map b.datumAt := by
  have hvalues : (Statement.ofFragment ⟨sql, b⟩).sent.values =
      ((b.places sql).map (placeName sql b)).filterMap
        (Fragment.spread ⟨sql, b⟩).params.datum? := by
    rw [← boundNames_ofFragment]
    rfl
  have hdatum : ∀ p ∈ b.places sql,
      (Fragment.spread ⟨sql, b⟩).params.datum? (placeName sql b p) = b.datumAt p ∧
        (b.datumAt p).isSome = true := by
    intro p hp
    obtain ⟨m, hm, hpm⟩ := List.mem_flatMap.1 (mem_firsts.1 hp)
    exact datum?_placeName hm hpm
  rw [hvalues, map_some_filterMap, List.map_map]
  · exact List.map_congr_left fun p hp => (hdatum p hp).1
  · intro n hn
    obtain ⟨p, hp, rfl⟩ := List.mem_map.1 hn
    obtain ⟨heq, hsome⟩ := hdatum p hp
    rw [heq, hsome]

/-- **What is sent is the direct account**: the text with every marker written as the numbers of its
places, and for each number the datum of its place, where every place of the text has one number and
nothing else has. -/
theorem sent_eq_direct :
    (Statement.ofFragment ⟨sql, b⟩).sent.sql =
        (tokenize sql).flatMap (b.writePlaces (b.places sql)) ∧
      (Statement.ofFragment ⟨sql, b⟩).sent.values.map some = (b.places sql).map b.datumAt ∧
      (b.places sql).Nodup ∧
      ∀ p, p ∈ b.places sql ↔
        p.1 ∈ Token.names (tokenize sql) ∧ p.2 < (b.elements p.1).length :=
  ⟨sql_sent_ofFragment sql b, values_sent_ofFragment sql b, b.nodup_places sql,
    b.mem_places_iff sql⟩

/-- Numbers follow the first appearances in the text, not the order of the bindings, and a marker that
comes again keeps its numbers. -/
example :
    let sql := "b = :b AND id IN (:ids) AND a = :a AND b <> :b AND id <> ALL (:ids)".toList
    let b : Bindings Nat := .ofList [(.name "a".toList, .scalar (some 1)),
      (.name "b".toList, .scalar (some 2)), (.name "ids".toList, .list [some 5, some 6])]
    b.places sql = [(['b'], 0), ("ids".toList, 0), ("ids".toList, 1), (['a'], 0)] ∧
      (Statement.ofFragment ⟨sql, b⟩).sent.sql =
        "b = $1 AND id IN ($2,$3) AND a = $4 AND b <> $1 AND id <> ALL ($2,$3)".toList ∧
      (Statement.ofFragment ⟨sql, b⟩).sent.values = [some 2, some 5, some 6, some 1] := by
  decide +kernel

end BoundQuery
