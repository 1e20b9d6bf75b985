/-
**Which value a `?` of a clause list gets.**

The values of the slots are found clause by clause, each clause looking at its own text, and the
markers are named afterwards by one scan of the joined text.  This module shows that the two agree:
the `?` numbered `k` in the joined text is bound to the value found for slot `k`.

Which value that is needs no account of the walk through the clauses.  Every `?` either has a value
of its own, because it is the first of a bound clause, or asks for one; and a `?` that asks gets the
positional value whose place in the caller's order is the number of `?` that have asked before it.

Main definitions:

* `Clause.ownSlots`, `Clauses.ownSlots` — the values that the `?` of clauses have of their own;
* `serve` — requests served in order from a supply;
* `Clauses.slotStem` — the stem of the names of the slots;
* `Clause.IsClosed` — clauses that no quoted span runs out of;
* `Clauses.Aligned` — what the bindings of compiled clauses are to be.

Main results:

* `getElem?_serve` — **a request is served by the number of requests before it**;
* `Clauses.slots_eq_serve` — walking through the clauses serves their requests;
* `Clauses.mergesApart_compile` — naming the slots replaces no other binding;
* `Clauses.compile_aligned` — **every `?` of the joined text has its value**.
-/

import BoundQuery.Proofs.JoinedText
import BoundQuery.Proofs.SlotNames

set_option relaxedAutoImplicit false
set_option autoImplicit false

namespace BoundQuery

open Token

variable {α : Type}

/-! ### Requests and a supply -/

section Serve

variable {ν : Type}

/-- Requests served in order: one that has a value keeps it, and any other takes the next value of
the supply, if one is left. -/
def serve : List (Option ν) → List ν → List (Option ν)
  | [], _ => []
  | some v :: os, supply => some v :: serve os supply
  | none :: os, supply => supply.head? :: serve os supply.tail

@[simp] theorem serve_some_cons (v : ν) (os : List (Option ν)) (supply : List ν) :
    serve (some v :: os) supply = some v :: serve os supply := rfl

@[simp] theorem serve_none_cons (os : List (Option ν)) (supply : List ν) :
    serve (none :: os) supply = supply.head? :: serve os supply.tail := rfl

/-- The number of requests that ask the supply. -/
def asking (os : List (Option ν)) : Nat := os.countP Option.isNone

@[simp] theorem asking_nil : asking ([] : List (Option ν)) = 0 := rfl

@[simp] theorem asking_some_cons (v : ν) (os : List (Option ν)) :
    asking (some v :: os) = asking os :=
  List.countP_cons_of_neg (by simp)

@[simp] theorem asking_none_cons (os : List (Option ν)) : asking (none :: os) = asking os + 1 :=
  List.countP_cons_of_pos rfl

theorem asking_append (os us : List (Option ν)) : asking (os ++ us) = asking os + asking us :=
  List.countP_append

@[simp] theorem asking_replicate (n : Nat) : asking (List.replicate n (none : Option ν)) = n := by
  simp [asking, List.countP_replicate]

@[simp] theorem length_serve (os : List (Option ν)) (supply : List ν) :
    (serve os supply).length = os.length := by
  induction os generalizing supply with
  | nil => rfl
  | cons o os ih => cases o <;> simp [serve, ih]

theorem serve_append (os us : List (Option ν)) (supply : List ν) :
    serve (os ++ us) supply = serve os supply ++ serve us (supply.drop (asking os)) := by
  induction os generalizing supply with
  | nil => rfl
  | cons o os ih =>
      cases o with
      | some v =>
          rw [List.cons_append, serve_some_cons, serve_some_cons, ih, asking_some_cons,
            List.cons_append]
      | none =>
          rw [List.cons_append, serve_none_cons, serve_none_cons, ih, asking_none_cons,
            List.cons_append, ← List.drop_one, List.drop_drop, Nat.add_comm 1]

/-- Requests that all ask take the supply as far as it goes. -/
theorem serve_replicate_none (n : Nat) (supply : List ν) :
    serve (List.replicate n none) supply = draw n supply := by
  induction n generalizing supply with
  | zero => simp [draw, serve]
  | succ n ih =>
      cases supply with
      | nil => simp [List.replicate_succ, ih, draw]
      | cons v supply => simp [List.replicate_succ, ih, draw]

/-- **A request is served by the number of requests before it**: the supply's value at the number of
those that asked before, unless it has a value of its own. -/
theorem getElem?_serve (os : List (Option ν)) (supply : List ν) (k : Nat) :
    (serve os supply)[k]? = os[k]?.map fun o => o.or supply[asking (os.take k)]? := by
  induction os generalizing supply k with
  | nil => rfl
  | cons o os ih =>
      cases k with
      | zero =>
          cases o with
          | some v => rfl
          | none => simp [serve, List.head?_eq_getElem?]
      | succ k =>
          cases o with
          | some v =>
              rw [serve_some_cons, List.getElem?_cons_succ, ih, List.take_succ_cons,
                asking_some_cons, List.getElem?_cons_succ]
          | none =>
              rw [serve_none_cons, List.getElem?_cons_succ, ih, List.take_succ_cons,
                asking_none_cons, List.getElem?_cons_succ, List.getElem?_tail]

end Serve

/-! ### The requests of clauses -/

/-- The values that the `?` of a clause have of their own: the first `?` of a bound clause has the
clause's value, and every other asks for one. -/
def Clause.ownSlots : Clause α → List (Option (Value α))
  | raw sql => List.replicate (countPositional sql) none
  | bound sql v => (List.replicate (countPositional sql) none).set 0 (some v)
  | column _ _ => []

theorem Clause.length_ownSlots (c : Clause α) : c.ownSlots.length = c.slotCount := by
  cases c <;> simp [ownSlots, slotCount]

namespace Clauses

/-- The values that the `?` of clauses have of their own, in scan order across the clauses. -/
def ownSlots (cs : List (Clause α)) : List (Option (Value α)) := cs.flatMap Clause.ownSlots

theorem ownSlots_cons (c : Clause α) (cs : List (Clause α)) :
    ownSlots (c :: cs) = c.ownSlots ++ ownSlots cs := rfl

/-- **Walking through the clauses serves their requests**; what nobody asked for is left over. -/
theorem slots_eq_serve (cs : List (Clause α)) (supply : List (Value α)) :
    slots cs supply =
      serve (ownSlots cs) supply ++ (supply.drop (asking (ownSlots cs))).map some := by
  induction cs generalizing supply with
  | nil => rfl
  | cons c cs ih =>
      cases c with
      | column n v => exact ih supply
      | raw sql =>
          rw [slots_raw, ih, ownSlots_cons, Clause.ownSlots, serve_append, asking_append,
            asking_replicate, serve_replicate_none, List.drop_drop, List.append_assoc]
      | bound sql v =>
          cases hn : countPositional sql with
          | zero =>
              have hown : (Clause.bound sql v).ownSlots = [] := by simp [Clause.ownSlots, hn]
              rw [ownSlots_cons, hown, List.nil_append, ← ih]
              simp only [slots, hn]
          | succ n =>
              have hown : (Clause.bound sql v).ownSlots = some v :: List.replicate n none := by
                simp [Clause.ownSlots, hn, List.replicate_succ]
              rw [slots_bound hn, ih, ownSlots_cons, hown, List.cons_append, List.cons_append,
                serve_some_cons, serve_append, serve_replicate_none, asking_some_cons,
                asking_append, asking_replicate, List.drop_drop, List.cons_append,
                List.append_assoc]

/-- The slot of a `?` has the value of its own, or the positional value it asked for. -/
theorem getElem?_slots {cs : List (Clause α)} {supply : List (Value α)} {k : Nat}
    {o : Option (Value α)} (h : (ownSlots cs)[k]? = some o) :
    (slots cs supply)[k]?.join = o.or supply[asking ((ownSlots cs).take k)]? := by
  have hlt : k < (serve (ownSlots cs) supply).length := by
    rw [length_serve]
    exact (List.getElem?_eq_some_iff.1 h).1
  rw [slots_eq_serve, List.getElem?_append_left hlt, getElem?_serve, h]
  rfl

/-- Behind the slots of the `?` are the positional values that nobody asked for. -/
theorem getElem?_slots_behind (cs : List (Clause α)) (supply : List (Value α)) (j : Nat) :
    (slots cs supply)[(ownSlots cs).length + j]?.join = supply[asking (ownSlots cs) + j]? := by
  have hle : (serve (ownSlots cs) supply).length ≤ (ownSlots cs).length + j := by
    rw [length_serve]
    exact Nat.le_add_right _ _
  rw [slots_eq_serve, List.getElem?_append_right hle, length_serve, Nat.add_sub_cancel_left,
    List.getElem?_map, List.getElem?_drop]
  cases supply[asking (ownSlots cs) + j]? <;> rfl

end Clauses

/-! ### The text -/

/-- A clause that no quoted span runs out of: SQL that ends outside quoted spans, or a column whose
name is a word. -/
def Clause.IsClosed : Clause α → Prop
  | raw sql => sql.IsClosed
  | bound sql _ => sql.IsClosed
  | column c _ => ∀ x ∈ c, isWordChar x = true

instance : (c : Clause α) → Decidable c.IsClosed
  | .raw sql => inferInstanceAs (Decidable sql.IsClosed)
  | .bound sql _ => inferInstanceAs (Decidable sql.IsClosed)
  | .column c _ => List.decidableBAll (fun x => isWordChar x = true) c

theorem QuoteStyle.mem_doubled {q : QuoteStyle} {name : Text} {x : Char}
    (h : x ∈ q.doubled name) : x = q.char ∨ x ∈ name := by
  induction name with
  | nil => cases h
  | cons c rest ih =>
      rw [doubled] at h
      split at h
      · next hc =>
          rcases List.mem_cons.1 h with rfl | h
          · exact .inl hc
          · rcases List.mem_cons.1 h with rfl | h
            · exact .inl hc
            · exact (ih h).imp_right (List.mem_cons_of_mem c)
      · rcases List.mem_cons.1 h with rfl | h
        · exact .inr List.mem_cons_self
        · exact (ih h).imp_right (List.mem_cons_of_mem c)

theorem QuoteStyle.mem_quote {q : QuoteStyle} {name : Text} {x : Char} (h : x ∈ q.quote name) :
    x = q.char ∨ x ∈ name := by
  rcases List.mem_cons.1 h with rfl | h
  · exact .inl rfl
  · rcases List.mem_append.1 h with h | h
    · exact mem_doubled h
    · exact .inl (List.mem_singleton.1 h)

/-- What is written behind a quoted column holds word characters and characters that mean nothing to
the reader's spans. -/
theorem Clause.write_column (d : Dialect) (stem c : Text) (v : Value α) :
    ∃ before after : Text, before.IsPlainJoiner ∧ after.IsPlainJoiner ∧
      (column c v).write d stem = d.quote.quote c ++ (before ++ ':' :: (stem ++ c) ++ after) := by
  rw [write]
  cases v.isList with
  | true => exact ⟨" IN (".toList, ")".toList, by decide, by decide, by simp⟩
  | false => exact ⟨" = ".toList, [], by decide, by decide, by simp⟩

theorem Text.IsPlainJoiner.append {s t : Text} (hs : s.IsPlainJoiner) (ht : t.IsPlainJoiner) :
    (s ++ t).IsPlainJoiner :=
  List.forall_mem_append.2 ⟨hs, ht⟩

theorem Text.isPlainJoiner_of_word {t : Text} (h : ∀ c ∈ t, isWordChar c = true) :
    t.IsPlainJoiner := fun c hc =>
  ⟨Mode.isQuoteChar_of_isWordChar (h c hc), ne_of_isWordChar (h c hc) isWordChar_question⟩

/-- The part of a column is its quoted name and text that holds no quote character and no `?`. -/
theorem Clause.exists_write_column (d : Dialect) {stem c : Text}
    (hstem : ∀ x ∈ stem, isWordChar x = true) (hc : ∀ x ∈ c, isWordChar x = true) (v : Value α) :
    ∃ rest : Text, rest.IsPlainJoiner ∧ (column c v).write d stem = d.quote.quote c ++ rest := by
  obtain ⟨before, after, hbefore, hafter, hwrite⟩ := write_column d stem c v
  have hcolon : Text.IsPlainJoiner [':'] := by decide
  have hname := (Text.isPlainJoiner_of_word hstem).append (Text.isPlainJoiner_of_word hc)
  exact ⟨_, (hbefore.append (hcolon.append hname)).append hafter, by simpa using hwrite⟩

/-- The part of a clause has a `?` for each of its slots. -/
theorem Clause.countPositional_write (d : Dialect) {stem : Text}
    (hstem : ∀ x ∈ stem, isWordChar x = true) {c : Clause α} (h : c.IsClosed) :
    countPositional (c.write d stem) = c.slotCount := by
  cases c with
  | raw sql => rfl
  | bound sql v => rfl
  | column n v =>
      obtain ⟨rest, hrest, hwrite⟩ := exists_write_column d hstem h v
      refine countPositional_of_no_question fun hq => ?_
      rw [hwrite, List.mem_append] at hq
      rcases hq with hq | hq
      · rcases QuoteStyle.mem_quote hq with hq | hq
        · exact absurd (hq ▸ d.quote.isQuoteChar_char) (by decide)
        · exact absurd (h _ hq) (by decide)
      · exact hrest.no_question hq

/-- The part of a closed clause is closed. -/
theorem Clause.IsClosed.write {c : Clause α} (h : c.IsClosed) (d : Dialect) {stem : Text}
    (hstem : ∀ x ∈ stem, isWordChar x = true) : (c.write d stem).IsClosed := by
  cases c with
  | raw sql => exact h
  | bound sql v => exact h
  | column n v =>
      obtain ⟨rest, hrest, hwrite⟩ := exists_write_column d hstem h v
      have hquote : Mode.plain.after (d.quote.quote n) = .plain :=
        d.quote.after_quote n .plain rfl
      rw [hwrite, Text.IsClosed, Mode.after_append, hquote]
      exact hrest.isClosed

namespace Clauses

/-- The parts of closed clauses are closed. -/
theorem isClosed_parts (d : Dialect) {stem : Text} {cs : List (Clause α)}
    (hstem : ∀ x ∈ stem, isWordChar x = true) (hcs : ∀ c ∈ cs, c.IsClosed) :
    ∀ p ∈ cs.map (Clause.write d stem), p.IsClosed := by
  intro p hp
  obtain ⟨c, hc, rfl⟩ := List.mem_map.1 hp
  exact (hcs c hc).write d hstem

/-- The joined text has a `?` for each slot of the clauses. -/
theorem countPositional_text (d : Dialect) {stem joiner : Text} {cs : List (Clause α)}
    (hstem : ∀ x ∈ stem, isWordChar x = true) (hj : joiner.IsPlainJoiner)
    (hcs : ∀ c ∈ cs, c.IsClosed) :
    countPositional (Text.join joiner (cs.map (Clause.write d stem))) = (ownSlots cs).length := by
  rw [countPositional_join hj (isClosed_parts d hstem hcs), ownSlots, List.length_flatMap, List.map_map]
  refine congrArg List.sum (List.map_congr_left fun c hc => ?_)
  exact (Clause.countPositional_write d hstem (hcs c hc)).trans c.length_ownSlots.symm

/-! ### The bindings -/

/-- The stem of the names of the slots. -/
def slotStem (stem : Text) (cs : List (Clause α)) (extra : Bindings α) : Text :=
  freshStem stem ((columns stem cs).names ++ (others cs extra).names)

/-- The stem of the slots starts no name of a column and no name of the caller's. -/
theorem slotStem_append_ne {stem : Text} {cs : List (Clause α)} {extra : Bindings α} {n : Text}
    (h : n ∈ (columns stem cs).names ∨ n ∈ extra.names) (x : Text) :
    slotStem stem cs extra ++ x ≠ n :=
  freshStem_append_ne
    (List.mem_append.2 (h.imp_right (mem_names_others cs extra n).2)) x

theorem slotStem_not_mem_names_others (stem : Text) (cs : List (Clause α)) (extra : Bindings α)
    (x : Text) : slotStem stem cs extra ++ x ∉ (others cs extra).names := fun h =>
  slotStem_append_ne (.inr ((mem_names_others cs extra _).1 h)) x rfl

/-- Columns have markers with names only. -/
theorem get?_columns_index (stem : Text) (cs : List (Clause α)) (i : Nat) :
    (columns stem cs).get? (.index i) = none := by
  rw [Bindings.get?_eq_none_iff, columns, Bindings.mem_keys_ofList]
  intro h
  obtain ⟨e, he, hkey⟩ := List.mem_map.1 h
  obtain ⟨c, -, hentry⟩ := List.mem_filterMap.1 he
  cases c with
  | raw sql => cases hentry
  | bound sql v => cases hentry
  | column n v =>
      cases hentry
      simp only [Key.ofText] at hkey
      split at hkey <;> cases hkey

/-- **Naming the slots replaces the binding of no column and of no name of the caller's.** -/
theorem mergesApart_compile (d : Dialect) (stem joiner : Text) (cs : List (Clause α))
    (extra : Bindings α) :
    Bindings.MergesApart (slotStem stem cs extra)
      (countPositional (Text.join joiner (cs.map (Clause.write d stem)))) (columns stem cs)
      (others cs extra) (compile d stem joiner cs extra).params :=
  Bindings.mergesApart (fun i _ h => slotStem_append_ne (.inl h) (decimal i) rfl)
    fun i _ => slotStem_not_mem_names_others stem cs extra (decimal i)

/-- **What compiled clauses bind a name to** that a column or the caller has: what the caller gives
it, and else its column's value. -/
theorem get?_compile_name (d : Dialect) {stem : Text} (joiner : Text) {cs : List (Clause α)}
    {extra : Bindings α} {n : Text} (hn : n ∈ (columns stem cs).names ∨ n ∈ extra.names) :
    (compile d stem joiner cs extra).params.get? (.name n) =
      (extra.get? (.name n)).or ((columns stem cs).get? (.name n)) := by
  have hkept := (mergesApart_compile d stem joiner cs extra).kept n
    (hn.imp_right (mem_names_others cs extra n).2)
  rwa [get?_others_name] at hkept

variable (d : Dialect) {stem joiner : Text} {cs : List (Clause α)} (extra : Bindings α)

/-- A slot of the joined text is bound to the value found for it. -/
theorem get?_compile_slot {i : Nat}
    (hi : i < countPositional (Text.join joiner (cs.map (Clause.write d stem)))) :
    (compile d stem joiner cs extra).params.get? (.name (slotStem stem cs extra ++ decimal i)) =
      (slots cs extra.positional)[i]?.join := by
  rw [(mergesApart_compile d stem joiner cs extra).slot i hi, get?_others_index]

/-- A position behind the slots keeps the value that is left over. -/
theorem get?_compile_index {i : Nat}
    (hi : countPositional (Text.join joiner (cs.map (Clause.write d stem))) ≤ i) :
    (compile d stem joiner cs extra).params.get? (.index i) =
      (slots cs extra.positional)[i]?.join := by
  rw [(mergesApart_compile d stem joiner cs extra).behind i hi, get?_others_index,
    get?_columns_index, Option.or_none]

/-- A position of the text has moved to a name. -/
theorem get?_compile_index_of_lt {i : Nat}
    (hi : i < countPositional (Text.join joiner (cs.map (Clause.write d stem)))) :
    (compile d stem joiner cs extra).params.get? (.index i) = none := by
  rw [(mergesApart_compile d stem joiner cs extra).moved i hi, get?_columns_index]

/-- A name that the caller gives a value has this value. -/
theorem get?_compile_named {n : Text} {v : Value α} (h : extra.get? (.name n) = some v) :
    (compile d stem joiner cs extra).params.get? (.name n) = some v := by
  rw [get?_compile_name d joiner (.inr (Bindings.mem_names_of_get? h)), h, Option.some_or]

end Clauses

/-! ### The order of what is left over -/

/-- The values at positions among entries, in order. -/
def positionalValues (es : List (Key × Value α)) : List (Value α) :=
  es.filterMap fun e => if e.1.isIndex then some e.2 else none

theorem positionalValues_append (es us : List (Key × Value α)) :
    positionalValues (es ++ us) = positionalValues es ++ positionalValues us :=
  List.filterMap_append

theorem positionalValues_cons_name (n : Text) (v : Value α) (es : List (Key × Value α)) :
    positionalValues ((.name n, v) :: es) = positionalValues es := rfl

theorem positionalValues_cons_index (i : Nat) (v : Value α) (es : List (Key × Value α)) :
    positionalValues ((.index i, v) :: es) = v :: positionalValues es := rfl

/-- Giving a name a value leaves the positions alone. -/
theorem positionalValues_upsert_name (n : Text) (v : Value α) (es : List (Key × Value α)) :
    positionalValues (Assoc.upsert (.name n) v es) = positionalValues es := by
  induction es with
  | nil => rfl
  | cons e es ih =>
      obtain ⟨k, w⟩ := e
      rw [Assoc.upsert]
      by_cases hk : k = .name n
      · subst hk
        rw [if_pos rfl, positionalValues_cons_name, positionalValues_cons_name]
      · rw [if_neg hk]
        cases k with
        | index i => rw [positionalValues_cons_index, positionalValues_cons_index, ih]
        | name m => rw [positionalValues_cons_name, positionalValues_cons_name, ih]

/-- Entries at new positions are behind the positions that were there, whatever names come with
them. -/
theorem Bindings.positional_insertAll {es : List (Key × Value α)} (h : (Assoc.keys es).Nodup)
    (b : Bindings α) (hnew : ∀ i, Key.index i ∈ Assoc.keys es → Key.index i ∉ b.keys) :
    (b.insertAll es).positional = b.positional ++ positionalValues es := by
  induction es generalizing b with
  | nil => simp [insertAll, positionalValues]
  | cons e es ih =>
      obtain ⟨hhead, hrest⟩ := List.nodup_cons.1 h
      have hlater : ∀ i, Key.index i ∈ Assoc.keys es → Key.index i ∉ (b.insert e.1 e.2).keys := by
        intro i hi hmem
        have hold := hnew i (List.mem_cons_of_mem _ hi)
        rw [keys_insert] at hmem
        split at hmem
        · exact hold hmem
        · rcases List.mem_append.1 hmem with hmem | hmem
          · exact hold hmem
          · exact hhead (List.mem_singleton.1 hmem ▸ hi)
      have hstep : (b.insertAll (e :: es)).positional =
          ((b.insert e.1 e.2).insertAll es).positional := rfl
      rw [hstep, ih hrest _ hlater]
      obtain ⟨k, v⟩ := e
      cases k with
      | name n =>
          rw [positionalValues_cons_name]
          exact congrArg (· ++ positionalValues es) (positionalValues_upsert_name n v b.entries)
      | index i =>
          have happ : (b.insert (.index i) v).entries = b.entries ++ [(.index i, v)] :=
            Assoc.upsert_of_not_mem (hnew i List.mem_cons_self) v
          have hhere : (b.insert (.index i) v).positional = b.positional ++ [v] := by
            change positionalValues (b.insert (.index i) v).entries = _
            rw [happ, positionalValues_append]
            rfl
          rw [hhere, positionalValues_cons_index, List.append_assoc]
          rfl

namespace Clauses

/-- Of numbered slots, naming leaves at positions what is behind the named ones. -/
theorem positionalValues_named_numbered (stem : Text) (count k : Nat)
    (us : List (Option (Value α))) :
    positionalValues ((numbered k us).map fun e => (e.1.named stem count, e.2)) =
      (us.drop (count - k)).filterMap id := by
  induction us generalizing k with
  | nil => simp [numbered, positionalValues]
  | cons u us ih =>
      have hrest := ih (k + 1)
      by_cases hk : k < count
      · have hsub : count - k = count - (k + 1) + 1 := by omega
        rw [hsub, List.drop_succ_cons, ← hrest]
        cases u with
        | none => rfl
        | some v =>
            have hname : (Key.index k).named stem count = .name (stem ++ decimal k) := if_pos hk
            change positionalValues (((Key.index k).named stem count, v) ::
              (numbered (k + 1) us).map fun e => (e.1.named stem count, e.2)) = _
            rw [hname, positionalValues_cons_name]
      · have hsub : count - k = 0 := by omega
        have hsub' : count - (k + 1) = 0 := by omega
        rw [hsub, List.drop_zero]
        rw [hsub', List.drop_zero] at hrest
        cases u with
        | none => exact hrest
        | some v =>
            have hindex : (Key.index k).named stem count = .index k := if_neg hk
            change positionalValues (((Key.index k).named stem count, v) ::
              (numbered (k + 1) us).map fun e => (e.1.named stem count, e.2)) = _
            rw [hindex, positionalValues_cons_index, hrest]
            rfl

theorem positionalValues_named_named (stem : Text) (count : Nat) (b : Bindings α) :
    positionalValues (b.named.map fun e => (e.1.named stem count, e.2)) = [] := by
  refine List.filterMap_eq_nil_iff.2 fun e he => ?_
  obtain ⟨⟨k, v⟩, hx, rfl⟩ := List.mem_map.1 he
  cases k with
  | index i => cases (List.mem_filter.1 hx).2
  | name n => rfl

theorem positional_columns (stem : Text) (cs : List (Clause α)) :
    (columns stem cs).positional = [] := by
  refine List.filterMap_eq_nil_iff.2 fun e he => ?_
  obtain ⟨k, v⟩ := e
  cases k with
  | name n => rfl
  | index i =>
      have hget := (Bindings.get?_eq_some_iff _ _ _).2 he
      rw [get?_columns_index] at hget
      cases hget

/-- The values at positions of compiled clauses are those of the slots behind the text's. -/
theorem positional_compile (d : Dialect) (stem joiner : Text) (cs : List (Clause α))
    (extra : Bindings α) :
    (compile d stem joiner cs extra).params.positional =
      ((slots cs extra.positional).drop
        (countPositional (Text.join joiner (cs.map (Clause.write d stem))))).filterMap id := by
  have hentries := Fragment.entries_namePositional
    (fun j (_ : j < countPositional (Text.join joiner (cs.map (Clause.write d stem)))) =>
      slotStem_not_mem_names_others stem cs extra (decimal j))
  have hmerge := Bindings.positional_insertAll
    (Fragment.namePositional (slotStem stem cs extra)
      (Text.join joiner (cs.map (Clause.write d stem))) (others cs extra)).params.nodup
    (columns stem cs) fun i _ => (Bindings.get?_eq_none_iff _ _).1 (get?_columns_index stem cs i)
  refine hmerge.trans ?_
  rw [positional_columns, hentries, entries_others, List.map_append, positionalValues_append,
    positionalValues_named_numbered, positionalValues_named_named, List.append_nil, Nat.sub_zero]
  rfl

/-! ### Alignment -/

/-- The bindings of compiled clauses whose `?` are named `sub` and their number, where `own` are the
values that the `?` have of their own. -/
structure Aligned (sub : Text) (own : List (Option (Value α))) (extra params : Bindings α) :
    Prop where
  /-- A `?` has its own value, or the next positional value that is not used yet, or none. -/
  slot : ∀ k o, own[k]? = some o →
    params.get? (.name (sub ++ decimal k)) = o.or extra.positional[asking (own.take k)]?
  /-- The positional values that no `?` asked for have the positions behind the last `?`. -/
  leftover : ∀ j, params.get? (.index (own.length + j)) = extra.positional[asking own + j]?
  /-- No other positions are left. -/
  moved : ∀ i < own.length, params.get? (.index i) = none
  /-- The positional values that no `?` asked for are in order. -/
  order : params.positional = extra.positional.drop (asking own)
  /-- What the caller binds to a name is carried over. -/
  named : ∀ n v, extra.get? (.name n) = some v → params.get? (.name n) = some v

/-- **Every `?` of the joined text has its value.**  The text is the joined parts with their `?`
named in order across the parts, and each `?` is bound to its own value if it is the first of a
bound clause, and otherwise to the next positional value; what is left over stays behind the `?`,
and what is named is carried over. -/
theorem compile_aligned (d : Dialect) {stem joiner : Text} {cs : List (Clause α)}
    (hstem : ∀ x ∈ stem, isWordChar x = true) (hj : joiner.IsPlainJoiner)
    (hcs : ∀ c ∈ cs, c.IsClosed) (extra : Bindings α) :
    (∃ k, slotStem stem cs extra = stem ++ underscores (k + 1)) ∧
    (compile d stem joiner cs extra).sql =
      Text.join joiner (namedParts (slotStem stem cs extra) 0 (cs.map (Clause.write d stem))) ∧
    Aligned (slotStem stem cs extra) (ownSlots cs) extra
      (compile d stem joiner cs extra).params := by
  have hcount := countPositional_text d hstem hj hcs
  have hparts := isClosed_parts d hstem hcs
  refine ⟨⟨_, rfl⟩, nameMarkers_join hj (slotStem stem cs extra) hparts 0, ?_, ?_, ?_, ?_, ?_⟩
  · intro k o hk
    have hlt : k < (ownSlots cs).length := (List.getElem?_eq_some_iff.1 hk).1
    exact (get?_compile_slot d extra (hcount ▸ hlt)).trans (getElem?_slots hk)
  · intro j
    rw [get?_compile_index d extra (hcount ▸ Nat.le_add_right _ j), getElem?_slots_behind]
  · intro i hi
    exact get?_compile_index_of_lt d extra (hcount ▸ hi)
  · have hlen : (serve (ownSlots cs) extra.positional).length = (ownSlots cs).length :=
      length_serve _ _
    rw [positional_compile, hcount, slots_eq_serve, ← hlen, List.drop_left, List.filterMap_map]
    exact List.filterMap_some
  · exact fun n v h => get?_compile_named d extra h

/-- Three slots in two clauses around a column: the first has its own value, the others take
positional values in the order of their insertion, and the third of these is left over.  The names
of the caller's make the stem of the slots longer by one underscore. -/
theorem three_slots_aligned :
    let cs : List (Clause Nat) :=
      [.bound "age > ? OR age < ?".toList (.scalar (some 18)),
        .column "status".toList (.list [some 1]), .raw "note = 'why?' AND kind = ?".toList]
    let extra : Bindings Nat := .ofList
      [(.index 7, .scalar (some 65)), (.name "w__0".toList, .scalar (some 3)),
        (.index 0, .list [some 4, none]), (.index 1, .null)]
    (∀ x ∈ "w_".toList, isWordChar x = true) ∧ Text.IsPlainJoiner " AND ".toList ∧
    (∀ c ∈ cs, c.IsClosed) ∧
    (compile .double "w_".toList " AND ".toList cs extra).sql =
      ("age > :w___0 OR age < :w___1 AND ".toList ++
        "\"status\" IN (:w_status) AND note = 'why?' AND kind = :w___2".toList) ∧
    Aligned "w___".toList [some (.scalar (some 18)), none, none] extra
      (compile .double "w_".toList " AND ".toList cs extra).params := by
  intro cs extra
  have hstem : ∀ x ∈ "w_".toList, isWordChar x = true := List.all_eq_true.1 (by decide)
  have hj : Text.IsPlainJoiner " AND ".toList := by decide
  have hcs : ∀ c ∈ cs, c.IsClosed := by decide
  obtain ⟨-, hsql, haligned⟩ := compile_aligned .double hstem hj hcs extra
  have hsub : slotStem "w_".toList cs extra = "w___".toList := by decide
  have hown : ownSlots cs = [some (.scalar (some 18)), none, none] := by decide
  refine ⟨hstem, hj, hcs, ?_, ?_⟩
  · rw [hsql, hsub]
    decide
  · rw [← hsub, ← hown]
    exact haligned

end Clauses

end BoundQuery
