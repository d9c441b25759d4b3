import Callable.Proofs.Liveness.Stage

/-!
# The actions of scripts stay in runs

Whatever an expression or an action does, it does by operations of the library, on values that are in
registers or that it got at from there. There is one lemma for each family of actions, with one case
for each action.

* `Script.stays_eval` — the value of an expression is at hand, and what was at hand still is.
* `Script.stays_valueAction`, `Script.stays_listAction`, … — after an action the value that it
  produces is at hand.
* `Script.stays_weakAction` — before a weak reference is asked about its function, what is held by
  nothing is let go.
-/

namespace Callable.Script

open Run

variable {ω : Type}

/-! ### Expressions -/

mutual

theorem stays_eval : ∀ (e : Expr) (before : List Value),
    Stays before (e.eval : Run ω Value) fun v => v :: before
  -- an expression is evaluated by parts: what they made is at hand for what is made of them
  | .none, _ | .bool _, _ | .int _, _ | .float _, _ => .scalar rfl
  | .str text, _ =>
    .bind (.make (fun t => [.str t]) fun s _ _ => .newStr text) fun _ => .pure fun _ hv => hv
  | .tuple es, before => .bind (stays_evalItems es before) fun vs =>
    .bind (.make (fun t => [.tuple t]) fun s _ h =>
      .newTuple fun v hv => h v (List.mem_append_left _ hv)) fun _ => .pure (by grind)
  | .list es, before => .bind (stays_evalItems es before) fun vs =>
    .bind (.make (fun r => [.list r]) fun s _ h =>
      .newList fun v hv => h v (List.mem_append_left _ hv)) fun _ => .pure (by grind)
  | .dict es, before => .bind (stays_evalEntries es before) fun vs =>
    .bind (.make (fun r => [.dict r]) fun s _ h =>
      .newDict fun v hv => h v (List.mem_append_left _ (Table.mem_values_ofList hv))) fun _ =>
        .pure (by grind)
  | .emptyCell, _ =>
    .bind (.make (fun r => [.cell r]) fun s _ _ => .newCell nofun) fun _ => .pure fun _ hv => hv
  | .cell e, before => .bind (stays_eval e before) fun v =>
    .bind (.make (fun r => [.cell r]) fun s _ h =>
      .newCell fun u hu => h u (Option.some.inj hu ▸ List.mem_cons_self)) fun _ =>
        .pure (by grind)
  | .code name es freeVars, before => .bind (stays_evalItems es before) fun vs =>
    .bind (.make (fun c => [.code c]) fun s _ h =>
      .newCode name freeVars fun v hv => h v (List.mem_append_left _ hv)) fun _ =>
        .pure (by grind)
  | .register name, _ => fun w => .ofStage <| .require fun v hv =>
    -- a register is a root already
    List.forall_mem_cons.2 ⟨has_of_frame (mem_frames_of_register? hv), fun _ hu => has_of_hand hu⟩
  | .item e i, before => .bind (stays_eval e before) fun v => by
    cases v with
    | tuple t =>
      -- an item of a tuple is in the handles of the tuple, which needs no look at the store
      have ht {w : World Stage ω} : (sceneAt w.store w.host (.tuple t :: before)).Has (.tuple t) :=
        has_of_hand List.mem_cons_self
      exact fun w => .require fun x hx => List.forall_mem_cons.2
        ⟨.of_tuple ht (List.mem_of_getElem? hx), fun _ hu => has_of_hand (List.mem_cons_of_mem _ hu)⟩
    | list r =>
      -- an item of a list hangs on what the store has in the list at this moment
      refine .bind (.readList List.mem_cons_self) fun s => .require fun x hx => ?_
      have hmem : x ∈ s.list r := List.mem_of_getElem? hx
      grind
    | _ => exact .throw
  | .entry e key, before => .bind (stays_eval e before) fun v => by
    cases v with
    | dict r =>
      refine .bind (.readDict List.mem_cons_self) fun s => .require fun x hx => ?_
      have hmem : x ∈ (s.dict r).values := Table.mem_values_iff.2 ⟨key, hx⟩
      grind
    | _ => exact .throw
  | .sum a b, before => .bind (stays_eval a before) fun v => .bind (stays_eval b _) fun u => by
    -- a sum is a scalar, with nothing in it
    cases v <;> cases u <;> first | exact .throw | exact .mono (.scalar rfl) (by grind)

theorem stays_evalItems : ∀ (es : List Expr) (before : List Value),
    Stays before (Expr.evalItems es : Run ω (List Value)) fun vs => vs ++ before
  | [], _ => .pure fun _ hv => hv
  | e :: es, before => .bind (stays_eval e before) fun v =>
    .bind (stays_evalItems es _) fun vs => .pure (by grind)

theorem stays_evalEntries : ∀ (es : List (String × Expr)) (before : List Value),
    Stays before (Expr.evalEntries es : Run ω (List (String × Value)))
      fun vs => vs.map Prod.snd ++ before
  | [], _ => .pure fun _ hv => hv
  | (name, e) :: es, before => .bind (stays_eval e before) fun v =>
    .bind (stays_evalEntries es _) fun vs => .pure (by grind)

end

section Parts

variable (e : Expr) (before : List Value)

/-- The value of an expression that has to be of one sort. -/
theorem stays_part {α : Type} {part : Value → Option α} {whole : α → Value}
    (hpart : ∀ {v a}, part v = some a → v = whole a) :
    Stays before (do Run.require (part (← e.eval)) : Run ω α) fun a => whole a :: before := by
  refine .bind (stays_eval e before) fun v => .require fun a ha => ?_
  -- the part is the value itself under another type, so it is at hand as the value is
  obtain rfl : v = whole a := hpart ha
  exact fun _ hu => hu

theorem stays_evalList : Stays before (e.evalList : Run ω ListRef) fun r => .list r :: before :=
  stays_part e before fun {v r} h => by cases v <;> cases h; rfl

theorem stays_evalDict : Stays before (e.evalDict : Run ω DictRef) fun r => .dict r :: before :=
  stays_part e before fun {v r} h => by cases v <;> cases h; rfl

theorem stays_evalCell : Stays before (e.evalCell : Run ω CellRef) fun r => .cell r :: before :=
  stays_part e before fun {v r} h => by cases v <;> cases h; rfl

theorem stays_evalCode : Stays before (e.evalCode : Run ω Code) fun c => .code c :: before :=
  stays_part e before fun {v c} h => by cases v <;> cases h; rfl

theorem stays_evalFunction :
    Stays before (e.evalFunction : Run ω FunctionRef) fun f => .function f :: before :=
  stays_part e before fun {v f} h => by cases v <;> cases h; rfl

theorem stays_evalMethod : Stays before (e.evalMethod : Run ω Method) fun m => .method m :: before :=
  stays_part e before fun {v m} h => by cases v <;> cases h; rfl

theorem stays_evalTuple? :
    Stays before (evalTuple? e : Run ω (Option Tuple)) fun t => .ofTuple? t :: before := by
  refine .bind (stays_eval e before) fun v => ?_
  cases v with
  -- `None` stands for no tuple, and any other value but a tuple is refused
  | none => exact .pure fun _ hv => hv
  | tuple t =>
    have hrequire : Stays (.tuple t :: before) (Run.require (some t) : Run ω Tuple)
        fun u => .tuple u :: before := .require fun u hu => by cases hu; exact fun _ hv => hv
    exact .bind hrequire fun _ => .pure fun _ hv => hv
  | _ => exact .bind (.require nofun) fun _ => .pure fun _ hv => hv

theorem stays_evalDict? :
    Stays before (evalDict? e : Run ω (Option DictRef)) fun r => .ofDict? r :: before := by
  refine .bind (stays_eval e before) fun v => ?_
  cases v with
  | none => exact .pure fun _ hv => hv
  | dict r =>
    have hrequire : Stays (.dict r :: before) (Run.require (some r) : Run ω DictRef)
        fun u => .dict u :: before := .require fun u hu => by cases hu; exact fun _ hv => hv
    exact .bind hrequire fun _ => .pure fun _ hv => hv
  | _ => exact .bind (.require nofun) fun _ => .pure fun _ hv => hv

end Parts

/-- The values are the cells, if all of them are cells. -/
theorem eq_map_of_mapM_cell? {vs : List Value} {cells : List CellRef}
    (h : vs.mapM Value.cell? = some cells) : vs = cells.map .cell := by
  -- on the values; `mapM` stops at the first that is no cell
  induction vs generalizing cells with
  | nil =>
    cases h
    rfl
  | cons v vs ih =>
    simp only [List.mapM_cons, Option.bind_eq_bind, Option.bind_eq_some_iff] at h
    obtain ⟨r, hr, rest, hrest, hcells⟩ := h
    cases hcells
    rw [List.map_cons, ← ih hrest]
    cases v <;> cases hr
    rfl

theorem stays_evalClosure (cells : Option (List Expr)) (before : List Value) :
    Stays before (evalClosure cells : Run ω (Option (List CellRef)))
      fun c => (c.getD []).map .cell ++ before := by
  cases cells with
  | none => exact .pure fun _ hv => hv
  | some es =>
    -- the cells are the values of the expressions, which are at hand one by one
    have hcells : Stays before (Expr.evalCells es : Run ω (List CellRef))
        fun c => c.map .cell ++ before := by
      refine .bind (stays_evalItems es before) fun vs => .require fun c hc => ?_
      rw [eq_map_of_mapM_cell? hc]
      exact fun _ hv => hv
    exact .bind hcells fun _ => .pure fun _ hv => hv

/-- The parts of a new function. -/
def partsOf : Code × DictRef × Option (List CellRef) → List Value
  | (code, globals, cells) => .code code :: .dict globals :: (cells.getD []).map .cell

theorem stays_evalMaking (m : Making) :
    Stays [] (m.eval : Run ω (Code × DictRef × Option (List CellRef))) partsOf :=
  .bind (stays_evalCode m.code []) fun _ => .bind (stays_evalDict m.globals _) fun _ =>
    .bind (stays_evalClosure m.cells _) fun _ => .pure (by simp [partsOf])

/-! ### Values and containers -/

theorem stays_wrap (wr : Wrapper) (v : Value) : Stays [v] (wr.wrap v : Run ω Value) fun u => [u] := by
  cases wr with
  | list =>
    exact .bind (.make (fun r => [.list r]) fun s _ h => .newList h) fun _ => .pure (by simp)
  | tuple =>
    exact .bind (.make (fun t => [.tuple t]) fun s _ h => .newTuple h) fun _ => .pure (by simp)
  | dict =>
    exact .bind (.make (fun r => [.dict r]) fun s _ h =>
      .newDict fun u hu => h u (Table.mem_values_ofList hu)) fun _ => .pure (by simp)

theorem stays_wrapTimes (wr : Wrapper) :
    ∀ (n : Nat) (v : Value), Stays [v] (wr.wrapTimes n v : Run ω Value) fun u => [u]
  | 0, _ => .pure fun _ hu => hu
  | n + 1, v => .bind (stays_wrap wr v) fun u => stays_wrapTimes wr n u

theorem stays_valueAction (a : ValueAction) : Stays [] (a.perform : Run ω Result) produced := by
  cases a with
  | take e => exact .bind (stays_eval e []) fun v => .give List.mem_cons_self
  | nest wr n e =>
    exact .bind (stays_eval e []) fun v => .bind (stays_wrapTimes wr n v) fun _ =>
      .pure fun _ hu => hu
  -- the questions answer with a text or a truth value: nothing is made, nothing comes to hand
  | repr e => exact .bind (stays_eval e []) fun _ => .bind .store fun _ => .giveText _
  | display e => exact .bind (stays_eval e []) fun _ => .bind .store fun _ => .giveText _
  | kind e => exact .bind (stays_eval e []) fun _ => .answer _
  | isCallable e => exact .bind (stays_eval e []) fun _ => .answer _
  | isNone e => exact .bind (stays_eval e []) fun _ => .answer _
  | text e => exact .bind (stays_eval e []) fun _ => .answer _
  | toTuple e =>
    -- the tuple is made in the store that was read, which is still the store there is
    refine .bind (stays_eval e []) fun v w => .ofStore ?_
    cases h : w.store.toTuple? v with
    | none => exact Stays.answer _ w
    | some r =>
      have hv : (sceneAt w.store w.host [v]).Has v := has_of_hand List.mem_cons_self
      exact (StaysAt.modifyStore (.toTuple hv h)).bind fun _ => .pure fun u hu =>
        has_of_hand (List.mem_singleton.1 hu ▸ List.mem_cons_self)
  | equal a b =>
    exact .bind (stays_eval a []) fun _ => .bind (stays_eval b _) fun _ =>
      .bind .store fun _ => .answer _
  | identical a b =>
    exact .bind (stays_eval a []) fun _ => .bind (stays_eval b _) fun _ => .answer _

theorem stays_listAction (a : ListAction) : Stays [] (a.perform : Run ω Result) produced := by
  cases a with
  | push l e =>
    refine .bind (stays_evalList l []) fun r => .bind (stays_eval e _) fun v =>
      .bind (fun w => .modifyStore (.setList (r := r) (has_of_hand (by simp)) fun u hu => ?_)) fun _ => .done
    -- what the list holds after it is what it held and the new value
    rcases List.mem_append.1 hu with hu | hu
    · exact .of_list (has_of_hand (by simp)) hu
    · exact has_of_hand (List.mem_singleton.1 hu ▸ List.mem_cons_self)
  | set l i e =>
    refine .bind (stays_evalList l []) fun r => .bind (stays_eval e _) fun v =>
      .bind (.readList (r := r) (by simp)) fun s => .bind .check fun _ =>
        .bind (.modifyStore fun s' _ h => .setList (h _ (by simp)) fun u hu => h u ?_) fun _ => .done
    -- an item is replaced: the new one is at hand, the others were in the list
    rcases List.mem_or_eq_of_mem_set hu with hu | rfl
    · exact List.mem_append_left _ hu
    · simp
  | pop l =>
    -- the list keeps a part of what it held
    exact .bind (stays_evalList l []) fun r => .bind (.readList (r := r) (by simp)) fun s =>
      .bind (.modifyStore fun s' _ h => .setList (h _ (by simp)) fun u hu =>
        h u (List.mem_append_left _ (List.mem_of_mem_dropLast hu))) fun _ => .showOptional _

theorem stays_dictAction (a : DictAction) : Stays [] (a.perform : Run ω Result) produced := by
  cases a with
  | get d key =>
    exact .bind (stays_evalDict d []) fun r => .bind (.readDict (r := r) (by simp)) fun s =>
      .giveOptional fun u hu => List.mem_append_left _ (Table.mem_values_iff.2 ⟨key, hu⟩)
  | contains d key => exact .bind (stays_evalDict d []) fun _ => .bind .store fun _ => .answer _
  | set d key e =>
    refine .bind (stays_evalDict d []) fun r => .bind (stays_eval e _) fun v =>
      .bind (.readDict (r := r) (by simp)) fun s =>
        .bind (.modifyStore fun s' _ h => .setDict (h _ (by simp)) fun u hu => h u ?_) fun _ =>
          .showOptional _
    -- no other value gets in, wherever the entry is put
    rcases Table.mem_values_insert hu with rfl | hu
    · simp
    · exact List.mem_append_left _ hu
  | remove d key =>
    exact .bind (stays_evalDict d []) fun r => .bind (.readDict (r := r) (by simp)) fun s =>
      .bind (.modifyStore fun s' _ h => .setDict (h _ (by simp)) fun u hu =>
        h u (List.mem_append_left _ (Table.mem_values_erase hu))) fun _ => .showOptional _
  | size d => exact .bind .store fun _ => .bind (stays_evalDict d _) fun _ => .answer _
  | keys d => exact .bind (stays_evalDict d []) fun _ => .bind .store fun _ => .answer _
  | copy d =>
    -- the copy is a new dict, and what is in it is in the other one, which is at hand
    refine .bind (stays_evalDict d []) fun r =>
      .bind (fun w => .make (f := fun s => s.newDict (s.dict r)) (fun r => [.dict r])
        (.newDict fun u hu => .of_dict (has_of_hand List.mem_cons_self) hu)) fun _ =>
          .give List.mem_cons_self
  | same a b =>
    exact .bind (stays_evalDict a []) fun _ => .bind (stays_evalDict b _) fun _ => .answer _

theorem stays_cellAction (a : CellAction) : Stays [] (a.perform : Run ω Result) produced := by
  cases a with
  | get c => exact .bind (stays_evalCell c []) fun _ => .bind .store fun _ => .showOptional _
  | set c e =>
    exact .bind (stays_evalCell c []) fun r => .bind (stays_eval e _) fun v =>
      .bind (.modifyStore fun s _ h => .setCell (h _ (by simp)) fun u hu =>
        h u (Option.some.inj hu ▸ List.mem_cons_self)) fun _ => .done
  | clear c =>
    exact .bind (stays_evalCell c []) fun r =>
      .bind (.modifyStore fun s _ h => .setCell (h _ (by simp)) nofun) fun _ => .done
  | isEmpty c => exact .bind (stays_evalCell c []) fun _ => .bind .store fun _ => .answer _
  | contents c =>
    -- reading an empty cell is an error, and the only value that a full one gives is its own
    refine .bind (stays_evalCell c []) fun r => .bind (.readCell (r := r) (by simp)) fun s => ?_
    have hcontents : Stays ((s.cell r).toList ++ [.cell r])
        (Run.orFault (s.cellContents r) : Run ω Value) fun v => [v] := by
      refine .orFault fun v hv u hu => ?_
      obtain rfl := List.mem_singleton.1 hu
      rw [Store.cellContents] at hv
      cases hcell : s.cell r with
      | none =>
        rw [hcell] at hv
        cases hv
      | some x =>
        rw [hcell] at hv
        cases hv
        exact List.mem_cons_self
    exact .bind hcontents fun v => .give List.mem_cons_self
  | same a b =>
    exact .bind (stays_evalCell a []) fun _ => .bind (stays_evalCell b _) fun _ => .answer _

/-! ### Functions and bound methods -/

theorem stays_makeFunction (code : Code) (globals : DictRef) (qualname : String)
    (cells : Option (List CellRef)) :
    Stays (partsOf (code, globals, cells))
      (Run.make fun s =>
        match cells with
        | some cells => s.makeClosure code globals qualname cells
        | none => s.makeFunction code globals qualname : Run ω FunctionRef)
      fun f => .function f :: partsOf (code, globals, cells) := by
  refine .make (fun f => [.function f]) fun s _ h => ?_
  have hcode := h (.code code) (by simp [partsOf])
  have hglobals := h (.dict globals) (by simp [partsOf])
  -- without cells a function is made, with cells a closure
  cases cells with
  | none => exact .makeFunction qualname hcode hglobals
  | some cells =>
    exact .makeClosure qualname hcode hglobals fun r hr => h _ (by simp [partsOf, hr])

theorem stays_functionAction (a : FunctionAction) : Stays [] (a.perform : Run ω Result) produced := by
  cases a with
  | make m =>
    exact .bind (stays_evalMaking m) fun ⟨code, globals, cells⟩ =>
      .bind (stays_makeFunction code globals m.qualname cells) fun _ => .give List.mem_cons_self
  -- these ask only
  | fields f => exact .bind (stays_evalFunction f []) fun _ => .bind .store fun _ => .answer _
  | same a b =>
    exact .bind (stays_evalFunction a []) fun _ => .bind (stays_evalFunction b _) fun _ => .answer _
  | codeInfo e => exact .bind (stays_evalCode e []) fun _ => .bind .store fun _ => .answer _
  | getAttr f name =>
    exact .bind (stays_evalFunction f []) fun r =>
      .bind (.attempt (fun v => [v]) fun _ h hf => .getAttr (h _ (by simp)) hf) fun _ =>
        .give List.mem_cons_self
  | setAttr f name e =>
    exact .bind (stays_evalFunction f []) fun r => .bind (stays_eval e _) fun v =>
      .bind (.attemptWrite fun _ h hf => .setAttr (h _ (by simp)) (h v (by simp)) hf) fun _ => .done
  | delAttr f name =>
    exact .bind (stays_evalFunction f []) fun r =>
      .bind (.attemptWrite fun _ h hf => .delAttr (h _ (by simp)) hf) fun _ => .done
  | setClosure f cells =>
    exact .bind (stays_evalFunction f []) fun r => .bind (stays_evalClosure cells _) fun c =>
      .bind (.attemptWrite fun _ h hf => .setClosure (h _ (by simp))
        (fun x hx => h _ (List.mem_append_left _ (List.mem_map_of_mem hx))) hf) fun _ => .done
  | setDefaults f e =>
    exact .bind (stays_evalFunction f []) fun r => .bind (stays_evalTuple? e _) fun t =>
      .bind (.modifyStore fun s _ h => .setDefaults (h _ (by simp)) (h _ (by simp))) fun _ => .done
  | setKwDefaults f e =>
    exact .bind (stays_evalFunction f []) fun r => .bind (stays_evalDict? e _) fun d =>
      .bind (.modifyStore fun s _ h => .setKwDefaults (h _ (by simp)) (h _ (by simp))) fun _ => .done
  | setAnnotations f e =>
    exact .bind (stays_evalFunction f []) fun r => .bind (stays_evalDict? e _) fun d =>
      .bind (.modifyStore fun s _ h => .setAnnotations (h _ (by simp)) (h _ (by simp))) fun _ => .done

theorem stays_methodAction (a : MethodAction) : Stays [] (a.perform : Run ω Result) produced := by
  cases a with
  | bind f e =>
    exact .bind (stays_evalFunction f []) fun r => .bind (stays_eval e _) fun v =>
      .bind (.make (fun u => [u]) fun s _ h => .bind (h _ (by simp)) (h v (by simp))) fun _ =>
        .give List.mem_cons_self
  | make f e =>
    exact .bind (stays_evalFunction f []) fun r => .bind (stays_eval e _) fun v =>
      .bind (.make (fun m => [.method m]) fun s _ h => .newMethod (h _ (by simp)) (h v (by simp)))
        fun _ => .give List.mem_cons_self
  | getAttr m name =>
    exact .bind (stays_evalMethod m []) fun r =>
      .bind (.attempt (fun v => [v]) fun _ h hf => .getMethodAttr (h _ (by simp)) hf) fun _ =>
        .give List.mem_cons_self
  | parts m => exact .bind (stays_evalMethod m []) fun _ => .bind .store fun _ => .answer _

theorem stays_attributeAction (a : AttributeAction) :
    Stays [] (a.perform : Run ω Result) produced := by
  cases a with
  | names => exact .answer _
  | describe name => exact .answer _
  | get f a =>
    exact .bind (stays_evalFunction f []) fun r =>
      .bind (.make (fun v => [v]) fun s _ h => .getAttribute (h _ (by simp))) fun _ =>
        .give List.mem_cons_self
  | set f a e =>
    exact .bind (stays_evalFunction f []) fun r => .bind (stays_eval e _) fun v =>
      .bind (.attemptWrite fun _ h hf => .setAttribute (h _ (by simp)) (h v (by simp)) hf) fun _ =>
        .done
  | delete f a =>
    exact .bind (stays_evalFunction f []) fun r =>
      .bind (.attemptWrite fun _ h hf => .deleteAttribute (h _ (by simp)) hf) fun _ => .done

/-! ### Registers and weak references -/

section Stage

variable {t : Stage} {v : Value} {name : String}

/-- With one frame changed the calls under way are the same. -/
theorem sameCalls_modifyFrame (t : Stage) (name : String) (f : Frame → Frame) :
    SameCalls t (t.modifyFrame name f) := by
  rw [Stage.modifyFrame]
  split
  · rename_i inner outer _ hrunning
    exact ⟨rfl, by rw [hrunning]; rfl⟩
  · exact ⟨rfl, rfl⟩

theorem weak_modifyFrame (t : Stage) (name : String) (f : Frame → Frame) :
    (t.modifyFrame name f).weak = t.weak := by
  rw [Stage.modifyFrame]
  split <;> rfl

/-- What is in the frames after one has changed is in the changed one, or was there before. -/
theorem mem_frames_modifyFrame {f : Frame → Frame}
    (hv : v ∈ (t.modifyFrame name f).frames.flatMap Table.values) :
    (∃ frame ∈ t.frames, v ∈ (f frame).values) ∨ v ∈ t.frames.flatMap Table.values := by
  rw [Stage.modifyFrame] at hv
  split at hv
  · -- a body is running and the name is its own, so the innermost frame has changed
    rename_i inner outer _ hrunning
    simp only [Stage.frames, hrunning, List.flatMap_cons, List.mem_append] at hv ⊢
    rcases hv with hv | hv | hv
    · exact .inr (.inl hv)
    · exact .inl ⟨inner, by simp, hv⟩
    · exact .inr (.inr (.inr hv))
  · -- no body is running, or the name is a shared one: the outermost frame has changed
    simp only [Stage.frames, List.flatMap_cons, List.mem_append] at hv ⊢
    rcases hv with hv | hv
    · exact .inl ⟨t.outermost, by simp, hv⟩
    · exact .inr (.inr hv)

end Stage

/-- A value at hand may be kept in a register. -/
theorem stays_keep {before : List Value} {v : Value} (name : String) (hv : v ∈ before) :
    Stays before (Run.modifyStage (·.keep name v) : Run ω Unit) fun _ => before := by
  -- the calls under way and the weak references are not in frames, so there is only `v` to think of
  refine fun w => .modifyStage (sameCalls_modifyFrame ..) (fun u hu => ?_) ?_
  · rcases mem_frames_modifyFrame hu with ⟨frame, hframe, hu⟩ | hu
    · rcases Table.mem_values_insert hu with rfl | hu
      · exact has_of_hand hv
      · exact has_of_frame (List.mem_flatMap.2 ⟨frame, hframe, hu⟩)
    · exact has_of_frame hu
  · rw [Stage.keep, weak_modifyFrame]
    exact fun _ hx => hx

theorem stays_drop {before : List Value} (name : String) :
    Stays before (Run.modifyStage (·.drop name) : Run ω Unit) fun _ => before := by
  refine fun w => .modifyStage (sameCalls_modifyFrame ..) (fun u hu => has_of_frame ?_) ?_
  · rcases mem_frames_modifyFrame hu with ⟨frame, hframe, hu⟩ | hu
    · exact List.mem_flatMap.2 ⟨frame, hframe, Table.mem_values_erase hu⟩
    · exact hu
  · rw [Stage.drop, weak_modifyFrame]
    exact fun _ hx => hx

/-- A weak reference may be made to a function at hand. -/
theorem stays_downgrade {before : List Value} {f : FunctionRef} (name : String)
    (hf : .function f ∈ before) :
    Stays before (Run.modifyStage (·.keepWeak name ⟨f⟩) : Run ω Unit) fun _ => before := by
  intro w hreach
  -- the scene makes the reference first, and then the registers keep it
  have hdowngraded : Scene.Reachable
      { sceneAt w.store w.host before with weak := ⟨f⟩ :: w.host.weak.values } :=
    hreach.tail (.downgrade (has_of_hand hf))
  refine ⟨⟨rfl, rfl⟩, hdowngraded.keep rfl rfl
    (fun v hv => .of_root (Scene.mem_roots_of_kept hv)) fun x hx => ?_⟩
  rcases Table.mem_values_insert hx with rfl | hx
  · exact List.mem_cons_self
  · exact List.mem_cons_of_mem _ hx

/-- A weak reference that there is may be kept. -/
theorem stays_keepWeak {w : World Stage ω} {before : List Value} {x : WeakRef} (name : String)
    (hx : x ∈ w.host.weak.values) :
    StaysAt w before (Run.modifyStage (·.keepWeak name x)) fun _ => before := by
  refine .modifyStage ⟨rfl, rfl⟩ (fun v hv => has_of_frame hv) fun y hy => ?_
  rcases Table.mem_values_insert hy with rfl | hy
  · exact hx
  · exact hy

/-! ### Asking for the function of a weak reference -/

/-- What is not held is let go, if the script does not hold the function itself. -/
theorem stays_settleFor (f : FunctionRef) : Stays [] (Run.settleFor f : Run ω Unit) fun _ => [] := by
  intro w hreach
  change SameCalls w.host (settleFor f w).host ∧
    (sceneAt (settleFor f w).store (settleFor f w).host []).Reachable
  rw [settleFor]
  -- a function that the script itself holds is alive without a release
  split
  · exact ⟨.refl _, hreach⟩
  · refine ⟨.refl _, ?_⟩
    have hsettled := hreach.tail .settle
    rw [settled_sceneAt] at hsettled
    exact hsettled

/-- What was found out about a function stays so when the rest is let go. -/
theorem isAlive_settle_settleFor (f : FunctionRef) (w : World Stage ω) :
    (settle (settleFor f w)).store.isAlive (.function f) =
      (settleFor f w).store.isAlive (.function f) := by
  rw [settleFor]
  split
  · -- it is held by the script, and alive with a release or without
    rename_i h
    have hsame : settleFor f w = w := by rw [settleFor, if_pos h]
    rw [← isAlive_settleFor, hsame]
  · -- to release twice is to release once
    exact Store.isAlive_release_release w.store w.host.roots (.function f)

theorem host_settleFor (f : FunctionRef) (w : World Stage ω) : (settleFor f w).host = w.host := by
  rw [settleFor]
  split <;> rfl

theorem stays_evalWeak (name : String) : Stays [] (evalWeak name : Run ω WeakRef) fun _ => [] :=
  .bind .stage fun _ => .bind .check fun w => .bind (stays_settleFor w.target) fun _ => .pure nofun

/-- A weak reference is found in its register, and its function is settled. -/
theorem eq_of_evalWeak {name : String} {w w' : World Stage ω} {x : WeakRef}
    (h : evalWeak name w = (.ok x, w')) :
    w.host.weak? name = some x ∧ w' = settleFor x.target w := by
  change (Run.require (w.host.weak? name) >>= fun x => do Run.settleFor x.target; return x) w = _ at h
  cases hx : w.host.weak? name with
  | none =>
    rw [hx] at h
    cases h
  | some y =>
    rw [hx] at h
    cases h
    exact ⟨rfl, rfl⟩

/-- A function that is alive comes back by its weak reference, once it is settled. -/
theorem stays_giveUpgraded {w : World Stage ω} {x : WeakRef} (hx : x ∈ w.host.weak.values)
    (hsettled : x.isAlive (settle w).store = x.isAlive w.store) :
    StaysAt w [] (Run.giveOptional ((x.upgrade? w.store).map .function)) produced := by
  intro hreach
  cases hup : x.upgrade? w.store with
  -- dead: the answer is `None`, and nothing has come to hand
  | none => exact Stays.giveOptional (fun u hu => by cases hu) w hreach
  | some f =>
    -- the reference would give the function in the scene when that is settled, too
    have hscene : x.upgrade? (sceneAt w.store w.host []).settled = some f := by
      rw [settled_sceneAt, WeakRef.upgrade?, hsettled]
      exact hup
    have htaken := reachable_take (hreach.tail (.upgrade hx hscene))
    exact Stays.giveOptional (fun u hu => Option.some.inj hu ▸ List.mem_cons_self) w htaken

theorem stays_upgrade (name : String) :
    Stays [] ((WeakAction.upgrade name).perform : Run ω Result) produced := by
  refine fun w => (stays_evalWeak name w).bind fun {x w'} heval => .ofStore ?_
  -- the reference is read before the store is settled, and used after
  obtain ⟨hx, rfl⟩ := eq_of_evalWeak heval
  refine stays_giveUpgraded ?_ (isAlive_settle_settleFor x.target w)
  rw [host_settleFor]
  exact Table.mem_values_iff.2 ⟨name, hx⟩

theorem stays_weakAction (a : WeakAction) : Stays [] (a.perform : Run ω Result) produced := by
  cases a with
  | make f name =>
    exact .bind (stays_evalFunction f []) fun r =>
      .bind (stays_downgrade name List.mem_cons_self) fun _ => .done
  | clone name copy =>
    -- the reference goes from register to register, and only `upgrade` brings a value to hand
    exact fun w => .ofStage <| .ofRequire fun {x} hx =>
      (stays_keepWeak copy (Table.mem_values_iff.2 ⟨name, hx⟩)).bind fun _ => Stays.done _
  | drop name =>
    refine .bind .stage fun _ => .bind (fun w => .modifyStage ⟨rfl, rfl⟩ ?_ ?_) fun _ => .answer _
    · exact fun v hv => has_of_frame hv
    · exact fun x hx => Table.mem_values_erase hx
  | isAlive name => exact .bind (stays_evalWeak name) fun _ => .bind .store fun _ => .answer _
  | upgrade name => exact stays_upgrade name
  | repr name => exact .bind (stays_evalWeak name) fun _ => .bind .store fun _ => .giveText _
  | count f => exact .bind (stays_evalFunction f []) fun _ => .bind .stage fun _ => .answer _

end Callable.Script
