import Callable.Proofs.Liveness.Stage
import Callable.Proofs.Run.Sharing
import Mathlib.Data.List.Induction

/-!
# Dicts and their histories

A dict is written and removed from by all who have it, under their own names for it: some have the
dict, others a function of which it is the `__dict__`. None of this can be seen from the dict
afterwards. What is in it depends on the edits alone, one after the other, whoever made them.

So a history is a list of edits, and it says all there is to say: under a name there is what the last
edit of the name has written, and the names stand in the order in which they came in. A name comes in
when it is written while it is not there; to write it again does not move it, and if it is removed it
has to come in once more.

* `Edit.LastWrite`, `Edit.Present`, `Edit.ArrivedAt` — what a history says.
* `Table.Records` — a table is what the history says. `Table.records_replay` — so it is if the edits
  are made one after the other.
* `Store.Edits` — an edit, by any holder. `Career` — how a dict was made and what has become of it.
* `Career.dict_is_ordered_map` — the result, on reading, on what edits answer, and on copies.
-/

namespace Callable

/-- **An edit of a dict.** -/
inductive Edit where
  | write (k : String) (v : Value)
  | remove (k : String)

namespace Edit

variable {h : List Edit} {e : Edit} {k : String} {v : Value} {i j : Nat}

/-- The name that is written or removed. -/
def key : Edit → String
  | write k _ | remove k => k

/-- The table after an edit. -/
def on (t : Table Value) : Edit → Table Value
  | write k v => t.insert k v
  | remove k => t.erase k

/-- The table after some edits, the first of them on the empty one. -/
def replay (h : List Edit) : Table Value := h.foldl on .empty

theorem replay_concat (h : List Edit) (e : Edit) : replay (h ++ [e]) = e.on (replay h) :=
  List.foldl_concat on .empty e h

/-! ### What a history says -/

/-- **The last edit of a name has written a value.** -/
def LastWrite (h : List Edit) (k : String) (v : Value) : Prop :=
  ∃ before after, h = before ++ write k v :: after ∧ ∀ e ∈ after, e.key ≠ k

/-- A name is present if its last edit has written something. -/
def Present (h : List Edit) (k : String) : Prop := ∃ v, LastWrite h k v

/-- **A name has arrived at an edit** if it is written there, was not present just before, and has
not been removed since. -/
def ArrivedAt (h : List Edit) (k : String) (i : Nat) : Prop :=
  ∃ before v after, h = before ++ write k v :: after ∧ before.length = i ∧
    ¬ Present before k ∧ remove k ∉ after

/-- Some edit of a history with one more at its end is the last one, or one of those before. -/
theorem concat_eq_iff {x : Edit} {before after : List Edit} :
    h ++ [e] = before ++ x :: after ↔
      (after = [] ∧ h = before ∧ e = x) ∨
        ∃ after', after = after' ++ [e] ∧ h = before ++ x :: after' := by
  constructor
  · -- the last edit of the whole is the last of what comes after `x`, if there is any
    intro heq
    rcases List.eq_nil_or_concat after with rfl | ⟨after', y, rfl⟩
    · obtain ⟨hbefore, hx⟩ := List.append_inj' heq rfl
      exact .inl ⟨rfl, hbefore, List.singleton_inj.1 hx⟩
    · rw [List.concat_eq_append, ← List.cons_append, ← List.append_assoc] at heq
      obtain ⟨hbefore, hy⟩ := List.append_inj' heq rfl
      obtain rfl := List.singleton_inj.1 hy
      exact .inr ⟨after', List.concat_eq_append, hbefore⟩
  · rintro (⟨rfl, rfl, rfl⟩ | ⟨after', rfl, rfl⟩)
    · rfl
    · rw [List.append_assoc, List.cons_append]

theorem not_present_nil (k : String) : ¬ Present [] k := by
  rintro ⟨v, before, after, hsplit, -⟩
  exact absurd hsplit (by simp)

theorem lastWrite_concat :
    LastWrite (h ++ [e]) k v ↔ e = write k v ∨ e.key ≠ k ∧ LastWrite h k v := by
  constructor
  · rintro ⟨before, after, hsplit, hafter⟩
    -- the last write is the new edit, or the new edit comes after it and is of another name
    rcases concat_eq_iff.1 hsplit with ⟨-, -, he⟩ | ⟨after', rfl, hh⟩
    · exact .inl he
    · obtain ⟨hafter', he⟩ := List.forall_mem_append.1 hafter
      exact .inr ⟨he e List.mem_cons_self, before, after', hh, hafter'⟩
  · rintro (rfl | ⟨he, before, after, rfl, hafter⟩)
    · exact ⟨h, [], rfl, nofun⟩
    · refine ⟨before, after ++ [e], concat_eq_iff.2 (.inr ⟨after, rfl, rfl⟩), ?_⟩
      exact List.forall_mem_append.2 ⟨hafter, List.forall_mem_singleton.2 he⟩

theorem present_concat_write : Present (h ++ [write k v]) k := ⟨v, lastWrite_concat.2 (.inl rfl)⟩

theorem present_concat_of_ne (he : e.key ≠ k) : Present (h ++ [e]) k ↔ Present h k := by
  refine exists_congr fun v => ?_
  rw [lastWrite_concat]
  constructor
  · rintro (rfl | ⟨-, hv⟩)
    · exact absurd rfl he
    · exact hv
  · intro hv
    exact .inr ⟨he, hv⟩

theorem not_present_concat_remove : ¬ Present (h ++ [remove k]) k := by
  rintro ⟨v, hv⟩
  rcases lastWrite_concat.1 hv with he | ⟨he, -⟩
  · cases he
  · exact he rfl

/-- **Arrivals one edit later.** An arrival is forgotten when the name is removed, and there is a new
one when a name is written that is not present. -/
theorem arrivedAt_concat :
    ArrivedAt (h ++ [e]) k i ↔
      (e ≠ remove k ∧ ArrivedAt h k i) ∨
        (i = h.length ∧ ¬ Present h k ∧ ∃ v, e = write k v) := by
  constructor
  · rintro ⟨before, v, after, hsplit, rfl, habsent, hafter⟩
    -- the arrival is the new edit, or it is an old one that the new edit has not undone
    rcases concat_eq_iff.1 hsplit with ⟨-, rfl, rfl⟩ | ⟨after', rfl, hh⟩
    · exact .inr ⟨rfl, habsent, v, rfl⟩
    · rw [List.mem_append, not_or, List.mem_singleton] at hafter
      exact .inl ⟨Ne.symm hafter.2, before, v, after', hh, rfl, habsent, hafter.1⟩
  · rintro (⟨he, before, v, after, rfl, rfl, habsent, hafter⟩ | ⟨rfl, habsent, v, rfl⟩)
    · refine ⟨before, v, after ++ [e], concat_eq_iff.2 (.inr ⟨after, rfl, rfl⟩), rfl, habsent, ?_⟩
      rw [List.mem_append, not_or, List.mem_singleton]
      exact ⟨hafter, Ne.symm he⟩
    · exact ⟨h, v, [], rfl, rfl, habsent, List.not_mem_nil⟩

theorem ArrivedAt.lt_length (ha : ArrivedAt h k i) : i < h.length := by
  obtain ⟨before, v, after, rfl, rfl, -⟩ := ha
  rw [List.length_append, List.length_cons]
  exact Nat.lt_add_of_pos_right (Nat.succ_pos _)

/-- **The names that have arrived** are those that are present. -/
theorem exists_arrivedAt_iff : (∃ i, ArrivedAt h k i) ↔ Present h k := by
  -- by the last edit, since that is what `arrivedAt_concat` and `present_concat_of_ne` speak of
  induction h using List.reverseRecOn with
  | nil =>
    refine iff_of_false ?_ (not_present_nil k)
    rintro ⟨i, ha⟩
    exact Nat.not_lt_zero i ha.lt_length
  | append_singleton h e ih =>
    by_cases he : e.key = k
    · subst he
      cases e with
      | write k v =>
        refine iff_of_true ?_ present_concat_write
        -- the name has arrived before, or it arrives now
        by_cases hp : Present h k
        · obtain ⟨i, ha⟩ := ih.2 hp
          exact ⟨i, arrivedAt_concat.2 (.inl ⟨nofun, ha⟩)⟩
        · exact ⟨h.length, arrivedAt_concat.2 (.inr ⟨rfl, hp, v, rfl⟩)⟩
      | remove k =>
        refine iff_of_false ?_ not_present_concat_remove
        -- a removal is no arrival, and those before it are forgotten
        rintro ⟨i, ha⟩
        rcases arrivedAt_concat.1 ha with ⟨hne, -⟩ | ⟨-, -, v, hv⟩
        · exact hne rfl
        · cases hv
    · -- an edit of another name changes neither side
      rw [present_concat_of_ne he, ← ih]
      refine exists_congr fun i => ?_
      rw [arrivedAt_concat]
      constructor
      · rintro (⟨-, ha⟩ | ⟨-, -, v, rfl⟩)
        · exact ha
        · exact absurd rfl he
      · intro ha
        refine .inl ⟨?_, ha⟩
        rintro rfl
        exact he rfl

/-- A name arrives at one edit only, since it is present from then on. -/
theorem ArrivedAt.unique (hi : ArrivedAt h k i) (hj : ArrivedAt h k j) : i = j := by
  induction h using List.reverseRecOn with
  | nil => exact absurd hi.lt_length (Nat.not_lt_zero i)
  | append_singleton h e ih =>
    -- two arrivals, each old or new: both old or both new is what we want, one of each cannot be
    rcases arrivedAt_concat.1 hi with ⟨-, hi⟩ | ⟨hi, habsent, -⟩ <;>
      rcases arrivedAt_concat.1 hj with ⟨-, hj⟩ | ⟨hj, habsent', -⟩
    · exact ih hi hj
    · -- what has arrived before is present, so it does not arrive again
      exact absurd (exists_arrivedAt_iff.1 ⟨i, hi⟩) habsent'
    · exact absurd (exists_arrivedAt_iff.1 ⟨j, hj⟩) habsent
    · exact hi.trans hj.symm

/-- One name has arrived before another one. -/
def ArrivedBefore (h : List Edit) (k k' : String) : Prop :=
  ∀ i j, ArrivedAt h k i → ArrivedAt h k' j → i < j

/-! ### Edits one after the other -/

/-- **What is read is what the last edit has written.** -/
theorem get?_replay : (replay h).get? k = some v ↔ LastWrite h k v := by
  -- by the last edit: it decides on its own name and leaves the others as they are
  induction h using List.reverseRecOn generalizing v with
  | nil => exact iff_of_false nofun fun hv => not_present_nil k ⟨v, hv⟩
  | append_singleton h e ih =>
    rw [replay_concat, lastWrite_concat]
    cases e with
    | write k' v' =>
      rw [on, Table.get?_insert]
      by_cases hk : k' = k
      · subst hk
        rw [if_pos rfl]
        simp [key]
      · rw [if_neg hk, ih]
        simp [key, hk]
    | remove k' =>
      rw [on, Table.get?_erase]
      by_cases hk : k' = k
      · rw [if_pos hk]
        simp [key, hk]
      · rw [if_neg hk, ih]
        simp [key, hk]

theorem contains_replay : (replay h).contains k = true ↔ Present h k := by
  rw [Table.contains, Option.isSome_iff_exists]
  exact exists_congr fun _ => get?_replay

theorem mem_keys_replay : k ∈ (replay h).keys ↔ Present h k :=
  Table.contains_iff.symm.trans contains_replay

/-- **Names are listed in the order of arrival.** -/
theorem pairwise_keys_replay : (replay h).keys.Pairwise (ArrivedBefore h) := by
  induction h using List.reverseRecOn with
  | nil => exact .nil
  | append_singleton h e ih =>
    -- names that have arrived before keep their order
    have hold {ks : List String} (hks : ks.Sublist (replay h).keys) :
        ks.Pairwise (ArrivedBefore (h ++ [e])) := by
      refine (ih.sublist hks).imp_of_mem fun {k k'} hk hk' hbefore i j hi hj => ?_
      have hpresent : Present h k := mem_keys_replay.1 (hks.subset hk)
      have hpresent' : Present h k' := mem_keys_replay.1 (hks.subset hk')
      rcases arrivedAt_concat.1 hi with ⟨-, hi⟩ | ⟨-, habsent, -⟩
      · rcases arrivedAt_concat.1 hj with ⟨-, hj⟩ | ⟨-, habsent, -⟩
        · exact hbefore i j hi hj
        · exact absurd hpresent' habsent
      · exact absurd hpresent habsent
    rw [replay_concat]
    cases e with
    | remove k =>
      rw [on, Table.keys_erase]
      exact hold List.filter_sublist
    | write k v =>
      rw [on, Table.keys_insert]
      by_cases hk : k ∈ (replay h).keys
      · rw [if_pos hk]
        exact hold (.refl _)
      · -- the name comes in, and it comes last
        rw [if_neg hk]
        refine List.pairwise_append.2 ⟨hold (.refl _), List.pairwise_singleton _ k, ?_⟩
        intro k₁ hk₁ k₂ hk₂ i j hi hj
        -- it arrives with this edit, which has a greater number than any before
        obtain rfl := List.mem_singleton.1 hk₂
        have habsent : ¬ Present h k₂ := fun hp => hk (mem_keys_replay.2 hp)
        rcases arrivedAt_concat.1 hj with ⟨-, hj⟩ | ⟨rfl, -⟩
        · exact absurd (exists_arrivedAt_iff.1 ⟨j, hj⟩) habsent
        · rcases arrivedAt_concat.1 hi with ⟨-, hi⟩ | ⟨-, habsent', -⟩
          · exact hi.lt_length
          · exact absurd (mem_keys_replay.1 hk₁) habsent'

end Edit

/-- **A table is what a history says.** -/
structure Table.Records (t : Table Value) (h : List Edit) : Prop where
  /-- Under a name there is what its last edit has written. -/
  get : ∀ k v, t.get? k = some v ↔ Edit.LastWrite h k v
  contains : ∀ k, t.contains k = true ↔ Edit.Present h k
  /-- No name is listed twice, and those that are listed are present. -/
  unique : t.keys.Nodup
  listed : ∀ k, k ∈ t.keys ↔ Edit.Present h k
  /-- Every name that is listed has arrived at one edit, and later than those before it. -/
  arrived : ∀ k ∈ t.keys, ∃ i, Edit.ArrivedAt h k i ∧ ∀ j, Edit.ArrivedAt h k j → j = i
  ordered : t.keys.Pairwise (Edit.ArrivedBefore h)
  /-- The size is the number of the names that are present. -/
  size : ∀ ks : List String, ks.Nodup → (∀ k, k ∈ ks ↔ Edit.Present h k) → t.size = ks.length

/-- Edits make a table that is what they say. -/
theorem Table.records_replay (h : List Edit) : (Edit.replay h).Records h where
  get _ _ := Edit.get?_replay
  contains _ := Edit.contains_replay
  unique := (Edit.replay h).nodup_keys
  listed _ := Edit.mem_keys_replay
  arrived k hk := by
    obtain ⟨i, hi⟩ := Edit.exists_arrivedAt_iff.2 (Edit.mem_keys_replay.1 hk)
    exact ⟨i, hi, fun j hj => hj.unique hi⟩
  ordered := Edit.pairwise_keys_replay
  size ks hks hpresent := by
    -- two lists without repetition and with the same members have one length
    have hperm : (Edit.replay h).keys.Perm ks :=
      (List.perm_ext_iff_of_nodup (Edit.replay h).nodup_keys hks).2 fun k =>
        Edit.mem_keys_replay.trans (hpresent k).symm
    rw [Table.size_eq_length_keys]
    exact hperm.length_eq

/-- The table of some pairs is that of the edits that write one after the other. -/
theorem Table.ofList_eq_replay (pairs : List (String × Value)) :
    ofList pairs = Edit.replay (pairs.map fun p => .write p.1 p.2) := by
  rw [ofList, Edit.replay, List.foldl_map]
  rfl

/-! ### Edits by the holders of a dict -/

namespace Store

variable {s s' : Store} {r : DictRef} {e : Edit} {h : List Edit}

/-- **A dict is edited** by somebody who has it, or as an attribute of a function of which it is the
`__dict__`. -/
inductive Edits (s : Store) (r : DictRef) : Edit → Store → Prop
  | write (k : String) (v : Value) : Edits s r (.write k v) (s.setDict r ((s.dict r).insert k v))
  | remove (k : String) : Edits s r (.remove k) (s.setDict r ((s.dict r).erase k))
  | setAttr {g : FunctionRef} {n : String} {v : Value} {s' : Store}
      (hn : Attribute.ofName? n = none) (hr : (s.function g).dict = some r)
      (h : s.setAttr g n v = .ok s') : Edits s r (.write n v) s'
  | delAttr {g : FunctionRef} {n : String} {s' : Store} (hn : Attribute.ofName? n = none)
      (hr : (s.function g).dict = some r) (h : s.delAttr g n = .ok s') : Edits s r (.remove n) s'

/-- Whoever edits a dict, the outcome is the same. -/
theorem Edits.eq_setDict (h : s.Edits r e s') : s' = s.setDict r (e.on (s.dict r)) := by
  cases h with
  | write | remove => rfl
  | setAttr hn hr h =>
    -- the name is free and the function has this dict, so the entry goes there
    cases written_of_setAttr h with
    | field ha => exact absurd hn (Attribute.ofName?_ne_none ha)
    | first _ hnone => cases hr.symm.trans hnone
    | entry _ hr' =>
      cases hr.symm.trans hr'
      rfl
  | delAttr hn hr h =>
    -- the same for a deletion that was accepted
    obtain ⟨r', hr', rfl⟩ := exists_dict_of_delAttr hn h
    cases hr.symm.trans hr'
    rfl

/-- Attributes are written in the `__dict__` of a function. -/
theorem exists_edits_setAttr {g : FunctionRef} {n : String} (hn : Attribute.ofName? n = none)
    (hr : (s.function g).dict = some r) (v : Value) :
    ∃ s', s.setAttr g n v = .ok s' ∧ s.Edits r (.write n v) s' := by
  have hset : s.setAttr g n v = .ok (s.setDict r ((s.dict r).insert n v)) := by
    rw [Store.setAttr, hn]
    simp only [hr]
  exact ⟨_, hset, .setAttr hn hr hset⟩

/-- They are deleted there if they are there, and else it is refused. -/
theorem delAttr_free {g : FunctionRef} {n : String} (hn : Attribute.ofName? n = none)
    (hr : (s.function g).dict = some r) :
    s.delAttr g n = if (s.dict r).contains n then .ok (s.setDict r ((s.dict r).erase n))
      else .error (.noAttribute n) := by
  rw [Store.delAttr, hn]
  simp only [hr]

theorem exists_edits_delAttr {g : FunctionRef} {n : String} (hn : Attribute.ofName? n = none)
    (hr : (s.function g).dict = some r) (hc : (s.dict r).contains n = true) :
    ∃ s', s.delAttr g n = .ok s' ∧ s.Edits r (.remove n) s' := by
  have hdelete := delAttr_free (s := s) hn hr
  rw [if_pos hc] at hdelete
  exact ⟨_, hdelete, .delAttr hn hr hdelete⟩

/-- To edit a dict is to write to its entries. -/
theorem Edits.writes (h : s.Edits r e s') : s.Writes (.entries r) s' := by
  rw [h.eq_setDict]
  exact .setDict r _

end Store

/-- **The career of a dict**, from when it was made up to now: of pairs, for the first attribute of a
function, or as a copy; then it was edited, and anything else was done. -/
inductive Career : DictRef → List Edit → Store → Prop
  | ofPairs (s : Store) (pairs : List (String × Value)) :
      Career (s.newDict (.ofList pairs)).1 (pairs.map fun p => .write p.1 p.2)
        (s.newDict (.ofList pairs)).2
  | first {s s' : Store} {f : FunctionRef} {n : String} {v : Value} {r : DictRef}
      (hn : Attribute.ofName? n = none) (hnone : (s.function f).dict = none)
      (h : s.setAttr f n v = .ok s') (hr : (s'.function f).dict = some r) :
      Career r [.write n v] s'
  /-- A copy has the history of what it is a copy of. -/
  | copy {s : Store} {r : DictRef} {h : List Edit} (hc : Career r h s)
      (hr : s.dicts.isAlive r = true) :
      Career (s.newDict (s.dict r)).1 h (s.newDict (s.dict r)).2
  | edit {s s' : Store} {r : DictRef} {h : List Edit} {e : Edit} (hc : Career r h s)
      (he : s.Edits r e s') : Career r (h ++ [e]) s'
  | idle {s s' : Store} {r : DictRef} {h : List Edit} (hc : Career r h s) (hs : s.Idle s') :
      Career r h s'
  | writes {s s' : Store} {r : DictRef} {h : List Edit} {q : Location} (hc : Career r h s)
      (hq : .entries r ≠ q) (hs : s.Writes q s') : Career r h s'

/-! ### What there is of a dict -/

namespace Store

variable {s s' : Store} {r : DictRef} {e : Edit} {h : List Edit}

/-- A dict that was made follows a history: it is what the edits make, or it is gone. -/
def Follows (s : Store) (r : DictRef) (h : List Edit) : Prop :=
  s.Made (.entries r) ∧ ∀ {t}, s.dicts.get? r = some t → t = Edit.replay h

/-- A dict that was just made has the entries that it was made with. -/
theorem get?_newDict (s : Store) (t : Table Value) :
    (s.newDict t).2.dicts.get? (s.newDict t).1 = some t := by
  change (s.dicts.alloc t).2.get? (s.dicts.alloc t).1 = some t
  rw [Heap.get?_alloc, if_pos rfl]

theorem follows_newDict {t : Table Value} (ht : t = Edit.replay h) :
    (s.newDict t).2.Follows (s.newDict t).1 h := by
  have hget := s.get?_newDict t
  refine ⟨made_of_at? (p := .entries _) hget, fun ht' => ?_⟩
  exact (Option.some.inj (hget.symm.trans ht')).symm.trans ht

/-- What does not write to a dict leaves it as it is. -/
theorem Follows.keep (hf : s.Follows r h) (hkeeps : s.Keeps (.entries r) s') : s'.Follows r h := by
  obtain ⟨hmade, hback⟩ := hkeeps hf.1
  exact ⟨hmade, fun ht => hf.2 (hback ht)⟩

/-- An edit of a dict that is gone does nothing. -/
theorem Follows.edit (hf : s.Follows r h) (he : s.Edits r e s') : s'.Follows r (h ++ [e]) := by
  obtain rfl := he.eq_setDict
  constructor
  · change r.index < (s.dicts.set r _).size
    rw [Heap.size_set]
    exact hf.1
  · intro t ht
    change (s.dicts.set r _).get? r = some t at ht
    rw [Heap.get?_set] at ht
    split at ht
    · -- the dict is there, and the table that it had is the one of the edits so far
      rename_i halive
      have htable : s.dict r = Edit.replay h := hf.2 (Heap.get?_eq_some_get halive.2)
      rw [Edit.replay_concat, ← htable]
      exact (Option.some.inj ht).symm
    · rename_i hgone
      exact absurd ⟨rfl, Option.isSome_iff_exists.2 ⟨t, ht⟩⟩ hgone

end Store

namespace Career

variable {s : Store} {r : DictRef} {h : List Edit}

/-- **A dict follows its history** all through its career. -/
theorem follows (hc : Career r h s) : s.Follows r h := by
  -- on the career: a dict is made with what its history says, edits are appended, the rest keeps it
  induction hc with
  | ofPairs s pairs => exact Store.follows_newDict (Table.ofList_eq_replay pairs)
  | @first s s' f n v r hn hnone hset hr =>
    cases Store.written_of_setAttr hset with
    | field ha => exact absurd hn (Attribute.ofName?_ne_none ha)
    | entry _ hr' => cases hnone.symm.trans hr'
    | first =>
      cases hf : s.functions.isAlive f with
      | false =>
        -- a function that is gone has no dict
        have hgone : (s.withFirst f n v).2.functions.isAlive f = false :=
          (Store.isAlive_putField _ f f .dict _).trans hf
        rw [Store.function_of_not_isAlive hgone] at hr
        cases hr
      | true =>
        obtain rfl := Option.some.inj ((Store.function_withFirst hf n v).symm.trans hr)
        have hmade : (s.newDict (Table.empty.insert n v)).2.Follows _ [.write n v] :=
          Store.follows_newDict rfl
        have hne : Location.entries (s.withFirst f n v).1 ≠ .field f .dict := nofun
        exact hmade.keep (Store.keeps_putField hne _ _)
  | copy _ hr ih => exact Store.follows_newDict (ih.2 (Heap.get?_eq_some_get hr))
  | edit _ he ih => exact ih.edit he
  | idle _ hs ih => exact ih.keep (hs.keeps _)
  | writes _ hq hs ih => exact ih.keep (hs.keeps hq)

/-- As long as a dict is there, its entries are what the edits make. -/
theorem dict_eq_replay (hc : Career r h s) (hr : s.dicts.isAlive r = true) :
    s.dict r = Edit.replay h :=
  hc.follows.2 (Heap.get?_eq_some_get hr)

/-- **A dict is what its history says.** -/
theorem records (hc : Career r h s) (hr : s.dicts.isAlive r = true) : (s.dict r).Records h := by
  rw [hc.dict_eq_replay hr]
  exact Table.records_replay h

end Career

/-! ### What dicts answer -/

namespace Script.DictAction

open Run

variable {ω : Type} {d e : Expr} {w w₁ w₂ : World Stage ω} {r : DictRef}

/-- **To write an entry** answers what was there before. -/
theorem perform_set {v : Value} (hd : d.evalDict w = (.ok r, w₁)) (he : e.eval w₁ = (.ok v, w₂))
    (k : String) :
    (set d k e).perform w =
      (.ok ⟨.optional (((w₂.store.dict r).get? k).map
          (w₂.store.setDict r ((w₂.store.dict r).insert k v)).snapshot), none⟩,
        { w₂ with store := w₂.store.setDict r ((w₂.store.dict r).insert k v) }) :=
  (run_bind hd _).trans (run_bind he _)

/-- **To remove an entry** answers it. -/
theorem perform_remove (hd : d.evalDict w = (.ok r, w₁)) (k : String) :
    (remove d k).perform w =
      (.ok ⟨.optional (((w₁.store.dict r).get? k).map
          (w₁.store.setDict r ((w₁.store.dict r).erase k)).snapshot), none⟩,
        { w₁ with store := w₁.store.setDict r ((w₁.store.dict r).erase k) }) :=
  run_bind hd _

/-- **To copy a dict** makes one with the same entries. -/
theorem perform_copy (hd : d.evalDict w = (.ok r, w₁)) :
    (copy d).perform w =
      (.ok ⟨.value ((w₁.store.newDict (w₁.store.dict r)).2.snapshot
          (.dict (w₁.store.newDict (w₁.store.dict r)).1)),
          some (.dict (w₁.store.newDict (w₁.store.dict r)).1)⟩,
        { w₁ with store := (w₁.store.newDict (w₁.store.dict r)).2 }) :=
  run_bind hd _

end Script.DictAction

/-! ### The result -/

open Script in
/-- **A dict is an ordered map** of what its history says. -/
structure Store.OrderedMap (s : Store) (r : DictRef) (h : List Edit) : Prop where
  entries : (s.dict r).Records h
  /-- The names are attributes of every function of which it is the `__dict__`. -/
  attributes : ∀ {g : FunctionRef} {n : String}, (s.function g).dict = some r →
    Attribute.ofName? n = none →
      (∀ v, s.getAttr g n = .ok (v, s) ↔ Edit.LastWrite h n v) ∧
        (s.getAttr g n = .error (.noAttribute n) ↔ ¬ Edit.Present h n)
  /-- As such they can be written, and deleted if they are present, and that is to edit the dict. -/
  written : ∀ {g : FunctionRef} {n : String}, (s.function g).dict = some r →
    Attribute.ofName? n = none → ∀ v, ∃ s', s.setAttr g n v = .ok s' ∧ s.Edits r (.write n v) s'
  deleted : ∀ {g : FunctionRef} {n : String}, (s.function g).dict = some r →
    Attribute.ofName? n = none →
      (Edit.Present h n → ∃ s', s.delAttr g n = .ok s' ∧ s.Edits r (.remove n) s') ∧
        (¬ Edit.Present h n → s.delAttr g n = .error (.noAttribute n))
  /-- To write a name answers what the last edit of the name has written. -/
  set : ∀ {ω : Type} {d e : Expr} {w w₁ w₂ : World Stage ω} {v : Value},
    d.evalDict w = (.ok r, w₁) → e.eval w₁ = (.ok v, w₂) → w₂.store = s → ∀ k : String,
      ∃ before s', (∀ u, before = some u ↔ Edit.LastWrite h k u) ∧ s.Edits r (.write k v) s' ∧
        (DictAction.set d k e).perform w =
          (.ok ⟨.optional (before.map s'.snapshot), none⟩, { w₂ with store := s' })
  /-- So does to remove it. -/
  remove : ∀ {ω : Type} {d : Expr} {w w₁ : World Stage ω}, d.evalDict w = (.ok r, w₁) →
    w₁.store = s → ∀ k : String,
      ∃ before s', (∀ u, before = some u ↔ Edit.LastWrite h k u) ∧ s.Edits r (.remove k) s' ∧
        (DictAction.remove d k).perform w =
          (.ok ⟨.optional (before.map s'.snapshot), none⟩, { w₁ with store := s' })
  /-- A copy is a dict of its own, with the history up to now. Later edits of the dict keep it, and it
  stays as it is until it is written to itself. -/
  copy : ∀ {ω : Type} {d : Expr} {w w₁ : World Stage ω}, d.evalDict w = (.ok r, w₁) →
    w₁.store = s →
      ∃ c s', (DictAction.copy d).perform w =
          (.ok ⟨.value (s'.snapshot (.dict c)), some (.dict c)⟩, { w₁ with store := s' }) ∧
        c ≠ r ∧ Career c h s' ∧
        (∀ {s₁ s₂ : Store} {e : Edit}, s₁.Edits r e s₂ → s₁.Keeps (.entries c) s₂) ∧
        ∀ {during : List Moment}, Spares (.entries c) s' during → ∀ m ∈ during,
          m.store.dicts.isAlive c = true → m.store.dict c = s.dict r

/-- **A dict is an ordered map under every history.** Let a dict have been made of pairs, for the
first attribute of a function or as a copy, and then have been edited by those who have it and
through functions of which it is the `__dict__`, with anything else done in between. As long as it is
there, it has under every name what was written last and not removed since, and its names stand in
the order in which they have come in; edits answer what was there before, and a copy does not change
with it. -/
theorem Career.dict_is_ordered_map {s : Store} {r : DictRef} {h : List Edit} (hc : Career r h s)
    (hr : s.dicts.isAlive r = true) : s.OrderedMap r h := by
  have hrecords : (s.dict r).Records h := hc.records hr
  exact {
    entries := hrecords
    attributes := by
      intro g n hg hn
      -- a free attribute is looked up in the dict
      have hget := (Moment.showsEntries_of_eq (m := ⟨s, none⟩) (r := r) rfl).attributes hg hn
      rw [hget, ← hrecords.contains n, Table.contains]
      constructor
      · intro v
        rw [← hrecords.get]
        cases (s.dict r).get? n with
        | none => simp
        | some u => simp
      · cases (s.dict r).get? n with
        | none => simp
        | some u => simp
    written := fun hg hn v => Store.exists_edits_setAttr hn hg v
    deleted := by
      intro g n hg hn
      constructor
      · intro hpresent
        exact Store.exists_edits_delAttr hn hg ((hrecords.contains n).2 hpresent)
      · intro habsent
        rw [Store.delAttr_free hn hg]
        exact if_neg (mt (hrecords.contains n).1 habsent)
    set := by
      rintro ω d e w w₁ w₂ v hd he rfl k
      exact ⟨_, _, hrecords.get k, .write k v, Script.DictAction.perform_set hd he k⟩
    remove := by
      rintro ω d w w₁ hd rfl k
      exact ⟨_, _, hrecords.get k, .remove k, Script.DictAction.perform_remove hd k⟩
    copy := by
      rintro ω d w w₁ hd rfl
      -- the copy has a number of its own, as the dict is alive
      have hne : (w₁.store.newDict (w₁.store.dict r)).1 ≠ r :=
        (w₁.store.dicts.ne_alloc_fst hr (w₁.store.dict r)).symm
      refine ⟨_, _, Script.DictAction.perform_copy hd, hne, .copy hc hr, fun he => ?_, ?_⟩
      · exact he.writes.keeps fun hq => hne (Location.entries.inj hq)
      · intro during hspares m hm halive
        exact hspares.dict_eq (w₁.store.get?_newDict _) hm halive }

/-! ### A dict with two holders -/

section TwoHolders

/-- Two functions without attributes. -/
def holderless : Store :=
  ((Store.empty.makeFunction firstCode ⟨0⟩ "").2.makeFunction secondCode ⟨0⟩ "").2

/-- The edits of the dict, in turn. -/
def turns : List Edit :=
  [.write "b" (.int 1), .write "a" (.int 2), .write "b" (.int 3), .remove "b", .write "b" (.int 4)]

/-- Both functions have the dict, and these were its edits. -/
def Taken (h : List Edit) (s : Store) : Prop :=
  Career ⟨0⟩ h s ∧ s.dicts.isAlive ⟨0⟩ = true ∧
    (s.function ⟨0⟩).dict = some ⟨0⟩ ∧ (s.function ⟨1⟩).dict = some ⟨0⟩

theorem Taken.edit {s s' : Store} {h : List Edit} {e : Edit} (hs : Taken h s)
    (he : s.Edits ⟨0⟩ e s') : Taken (h ++ [e]) s' := by
  obtain ⟨hc, hr, hfirst, hsecond⟩ := hs
  refine ⟨hc.edit he, ?_⟩
  obtain rfl := he.eq_setDict
  refine ⟨?_, hfirst, hsecond⟩
  change ((s.dicts.set ⟨0⟩ _).get? ⟨0⟩).isSome = true
  rw [Heap.get?_set, if_pos ⟨rfl, hr⟩]
  rfl

/-- The first function is given an attribute, and the second one the dict that is made for it. From
then on they and somebody who has the dict take turns. -/
theorem exists_taken_turns : ∃ s, Taken turns s := by
  have ha : Attribute.ofName? "a" = none := by decide +kernel
  have hb : Attribute.ofName? "b" = none := by decide +kernel
  let made := (holderless.withFirst ⟨0⟩ "b" (.int 1)).2
  let shared := made.putField ⟨1⟩ .dict (some (⟨0⟩ : DictRef))
  have hmake : holderless.setAttr ⟨0⟩ "b" (.int 1) = .ok made := by
    rw [Store.setAttr, hb]
    rfl
  have hshare : made.setAttr ⟨1⟩ Attribute.dict.label (.dict ⟨0⟩) = .ok shared := by
    rw [Store.setAttr, Attribute.ofName?_label]
    rfl
  have hother : Location.entries ⟨0⟩ ≠ .field ⟨1⟩ .dict := by simp
  have hfirst : Career ⟨0⟩ [.write "b" (.int 1)] made := .first hb rfl hmake rfl
  have h₁ : Taken [.write "b" (.int 1)] shared := ⟨hfirst.writes hother (.set hshare), rfl, rfl, rfl⟩
  -- the second function, then somebody who has the dict, then the first function, and so on
  obtain ⟨s₂, -, he₂⟩ := Store.exists_edits_setAttr ha h₁.2.2.2 (.int 2)
  have h₂ := h₁.edit he₂
  have h₃ := h₂.edit (.write "b" (.int 3))
  -- the name is there when it is deleted, since it was written just before
  have hcontains := ((h₃.1.records h₃.2.1).contains "b").2 Edit.present_concat_write
  obtain ⟨s₄, -, he₄⟩ := Store.exists_edits_delAttr hb h₃.2.2.1 hcontains
  have h₄ := h₃.edit he₄
  obtain ⟨s₅, -, he₅⟩ := Store.exists_edits_setAttr hb h₄.2.2.2 (.int 4)
  exact ⟨s₅, h₄.edit he₅⟩

open Script in
/-- In the end both functions have what was written last, and the name that was removed and written
again comes last. To write it once more answers the value before. -/
theorem Career.dict_is_ordered_map_twoHolders :
    ∃ s, Career ⟨0⟩ turns s ∧ s.dicts.isAlive ⟨0⟩ = true ∧
      s.getAttr ⟨0⟩ "a" = .ok (.int 2, s) ∧ s.getAttr ⟨1⟩ "b" = .ok (.int 4, s) ∧
      (s.dict ⟨0⟩).keys = ["a", "b"] ∧ (s.dict ⟨0⟩).size = 2 ∧
      Edit.ArrivedAt turns "a" 1 ∧ Edit.ArrivedAt turns "b" 4 ∧
      ∃ (w : World Stage Unit) (s' : Store), w.store = s ∧
        (DictAction.set (.register "d") "b" .none).perform w =
          (.ok ⟨.optional (some (.int 4)), none⟩, { w with store := s' }) := by
  obtain ⟨s, hc, hr, hfirst, hsecond⟩ := exists_taken_turns
  have hmap : s.OrderedMap ⟨0⟩ turns := hc.dict_is_ordered_map hr
  have ha : Edit.LastWrite turns "a" (.int 2) := ⟨turns.take 1, turns.drop 2, rfl, by decide⟩
  have hb : Edit.LastWrite turns "b" (.int 4) := ⟨turns.take 4, [], rfl, nofun⟩
  have hkeys : (s.dict ⟨0⟩).keys = ["a", "b"] := by
    rw [hc.dict_eq_replay hr]
    decide +kernel
  have hpresent (k : String) : k ∈ ["a", "b"] ↔ Edit.Present turns k := by
    rw [← hkeys]
    exact hmap.entries.listed k
  have harrived : Edit.ArrivedAt turns "a" 1 := by
    refine ⟨turns.take 1, .int 2, turns.drop 2, rfl, rfl, ?_, by simp [turns]⟩
    intro hp
    exact Edit.not_present_nil "a" ((Edit.present_concat_of_ne (h := []) (by decide)).1 hp)
  have harrived' : Edit.ArrivedAt turns "b" 4 :=
    ⟨turns.take 4, .int 4, [], rfl, rfl, Edit.not_present_concat_remove (h := turns.take 3), nofun⟩
  -- somebody has the dict in a register
  let w : World Stage Unit := ⟨s, Stage.start.keep "d" (.dict ⟨0⟩), (), ""⟩
  have hd : (Expr.register "d").evalDict w = (.ok ⟨0⟩, w) := rfl
  obtain ⟨before, s', hbefore, -, hset⟩ := hmap.set (e := .none) hd rfl rfl "b"
  obtain rfl := (hbefore _).2 hb
  refine ⟨s, hc, hr, ((hmap.attributes hfirst (by decide +kernel)).1 _).2 ha,
    ((hmap.attributes hsecond (by decide +kernel)).1 _).2 hb, hkeys,
    hmap.entries.size _ (by decide) hpresent, harrived, harrived', w, s', rfl, hset⟩

end TwoHolders

end Callable
