import Mathlib.Data.Finset.Card
import Mathlib.Data.Finset.SDiff
import Mathlib.Data.List.Chain

/-!
# Walks with guards

A recursion over a graph that may have cycles comes to an end if it keeps a set of the places that
it is in the middle of. Where it comes to a guarded place it looks at the set first: a place that is
there is answered at once, and any other is put into the set, looked into, and taken out again.
Places without a guard are looked into in any case, so no cycle may consist of such places only.

* `Look` — what there is to do at a place, guarded or not; `Plan` — the visits that are made one
  after the other, each of which may decide what is done next.
* `Walks` — a walk, with the set of places in progress before and after it, and with its recursion
  as a tree.
* `Walks.active_eq` — a walk leaves the set as it was; `Walks.unique` — there is one walk only.
* `Guards` — what makes walks end: each place without a guard leads to places that are less deep.
* `Guards.exists_walk`, `Walks.sound` — so there is a walk from every place, and along each branch of
  its recursion no guarded place is entered twice and no more than so many others are passed in turn.
* `Solves`, `Walks.eq_eval` — what the answers are, without the set.
-/

namespace Callable.Walk

variable {N K R : Type}

/-! ### What a walk does at a place -/

/-- An answer that is found by visits to other places, one after the other. -/
inductive Plan (N R : Type) where
  | answer (r : R)
  | visit (n : N) (next : R → Plan N R)

namespace Plan

/-- The answer, if the visits are answered in the given way. -/
def eval (F : N → R) : Plan N R → R
  | answer r => r
  | visit n next => (next (F n)).eval F

/-- There are answers with which the plan comes to visit the place. -/
inductive Mentions (m : N) : Plan N R → Prop
  | here (next : R → Plan N R) : Mentions m (.visit m next)
  | later {n : N} {next : R → Plan N R} {r : R} (h : Mentions m (next r)) :
      Mentions m (.visit n next)

end Plan

/-- What there is to do at a place. A guarded place has a key, and an answer for the case that it is
come to again. -/
inductive Look (N K R : Type) where
  | through (plan : Plan N R)
  | guard (key : K) (again : R) (plan : Plan N R)

/-! ### Walks -/

/-- The recursion of a walk, as a tree: places that were passed through, guarded places that were
met again, and those that were entered. -/
inductive Trace (N K : Type) where
  | through (n : N) (below : List (Trace N K))
  | met (key : K)
  | entered (key : K) (below : List (Trace N K))

/-- What is to be walked: a place, or a plan. -/
inductive Part (N R : Type) where
  | place (n : N)
  | plan (p : Plan N R)

/-- **A walk.** It begins with some keys in progress and ends with some, and it answers. -/
inductive Walks [DecidableEq K] (look : N → Look N K R) :
    Finset K → Part N R → List (Trace N K) → R → Finset K → Prop
  | through {active active' : Finset K} {n : N} {plan : Plan N R} {ts : List (Trace N K)} {r : R}
      (hlook : look n = .through plan) (hplan : Walks look active (.plan plan) ts r active') :
      Walks look active (.place n) [.through n ts] r active'
  | met {active : Finset K} {n : N} {key : K} {again : R} {plan : Plan N R}
      (hlook : look n = .guard key again plan) (hkey : key ∈ active) :
      Walks look active (.place n) [.met key] again active
  | entered {active active' : Finset K} {n : N} {key : K} {again : R} {plan : Plan N R}
      {ts : List (Trace N K)} {r : R} (hlook : look n = .guard key again plan)
      (hkey : key ∉ active) (hplan : Walks look (insert key active) (.plan plan) ts r active') :
      Walks look active (.place n) [.entered key ts] r (active'.erase key)
  | answer (active : Finset K) (r : R) : Walks look active (.plan (.answer r)) [] r active
  | visit {active active₁ active₂ : Finset K} {n : N} {next : R → Plan N R} {t : Trace N K}
      {ts : List (Trace N K)} {r r' : R} (first : Walks look active (.place n) [t] r active₁)
      (rest : Walks look active₁ (.plan (next r)) ts r' active₂) :
      Walks look active (.plan (.visit n next)) (t :: ts) r' active₂

namespace Walks

variable [DecidableEq K] {look : N → Look N K R} {active active' active'' : Finset K}
  {part : Part N R} {ts ts' : List (Trace N K)} {r r' : R}

/-- **The set of places in progress is what it was**, however the walk has ended. -/
theorem active_eq (h : Walks look active part ts r active') : active' = active := by
  induction h with
  | through _ _ ih => exact ih
  | met => rfl
  | entered _ hkey _ ih =>
    -- the key was not there before, so taking it out leaves what there was
    rw [ih, Finset.erase_insert hkey]
  | answer => rfl
  | visit _ _ ihfirst ihrest => exact ihrest.trans ihfirst

/-- There is one walk only. -/
theorem unique (h : Walks look active part ts r active')
    (h' : Walks look active part ts' r' active'') :
    ts = ts' ∧ r = r' ∧ active' = active'' := by
  induction h generalizing ts' r' active'' with
  | through hlook _ ih =>
    -- the look and the set leave one constructor, and `hlook` against `hlook'` refutes the others
    cases h' with
    | through hlook' hplan' =>
      cases hlook.symm.trans hlook'
      obtain ⟨rfl, rfl, rfl⟩ := ih hplan'
      exact ⟨rfl, rfl, rfl⟩
    | met hlook' _ => cases hlook.symm.trans hlook'
    | entered hlook' _ _ => cases hlook.symm.trans hlook'
  | met hlook hkey =>
    cases h' with
    | through hlook' _ => cases hlook.symm.trans hlook'
    | met hlook' _ =>
      cases hlook.symm.trans hlook'
      exact ⟨rfl, rfl, rfl⟩
    | entered hlook' hkey' _ =>
      cases hlook.symm.trans hlook'
      -- the first walk has found the key in progress and the second one has not
      exact absurd hkey hkey'
  | entered hlook hkey _ ih =>
    cases h' with
    | through hlook' _ => cases hlook.symm.trans hlook'
    | met hlook' hkey' =>
      cases hlook.symm.trans hlook'
      exact absurd hkey' hkey
    | entered hlook' _ hplan' =>
      cases hlook.symm.trans hlook'
      obtain ⟨rfl, rfl, rfl⟩ := ih hplan'
      exact ⟨rfl, rfl, rfl⟩
  | answer =>
    cases h'
    exact ⟨rfl, rfl, rfl⟩
  | visit _ _ ihfirst ihrest =>
    -- the second part begins in the set that the first one leaves, hence in one set for both walks
    cases h' with
    | visit first' rest' =>
      obtain ⟨ht, rfl, rfl⟩ := ihfirst first'
      obtain ⟨rfl, rfl, rfl⟩ := ihrest rest'
      exact ⟨by rw [List.cons.inj ht |>.1], rfl, rfl⟩

end Walks

/-! ### What makes walks end -/

/-- **Guards that suffice.** Of the places in question each has a depth, up to some bound, and leads
to such places only; without a guard it leads to places that are less deep, and with one its key is
one of finitely many. -/
structure Guards (look : N → Look N K R) (In : N → Prop) (keys : Finset K) (depth : N → Nat)
    (bound : Nat) : Prop where
  depth_le : ∀ {n}, In n → depth n ≤ bound
  through : ∀ {n plan m}, In n → look n = .through plan → plan.Mentions m →
    In m ∧ depth m < depth n
  key_mem : ∀ {n key again plan}, In n → look n = .guard key again plan → key ∈ keys
  inside : ∀ {n key again plan m}, In n → look n = .guard key again plan → plan.Mentions m → In m

section Ending

variable [DecidableEq K] {look : N → Look N K R} {In : N → Prop} {keys : Finset K}
  {depth : N → Nat} {bound : Nat}

/-- A plan is walked if there is a walk from each place that it mentions. -/
theorem exists_walk_plan {active : Finset K} (plan : Plan N R)
    (h : ∀ m, plan.Mentions m → ∃ t r, Walks look active (.place m) [t] r active) :
    ∃ ts r, Walks look active (.plan plan) ts r active := by
  induction plan with
  | answer r => exact ⟨[], r, .answer active r⟩
  | visit n next ih =>
    obtain ⟨t, r, first⟩ := h n (.here next)
    -- the answer of the first visit chooses the rest of the plan
    obtain ⟨ts, r', rest⟩ := ih r fun m hm => h m (.later hm)
    exact ⟨t :: ts, r', .visit first rest⟩

/-- One more key in progress leaves fewer that are not. -/
theorem card_sdiff_insert_lt {active : Finset K} {key : K} (hmem : key ∈ keys)
    (hkey : key ∉ active) : (keys \ insert key active).card < (keys \ active).card := by
  rw [Finset.sdiff_insert]
  exact Finset.card_erase_lt_of_mem (Finset.mem_sdiff.2 ⟨hmem, hkey⟩)

/-- **Every walk ends.** -/
theorem Guards.exists_walk (hg : Guards look In keys depth bound) (active : Finset K) (n : N)
    (hn : In n) : ∃ t r, Walks look active (.place n) [t] r active := by
  cases hlook : look n with
  | through plan =>
    -- a place without a guard: the set stays, and the depth falls
    obtain ⟨ts, r, hplan⟩ := exists_walk_plan plan fun m hm => by
      have hbelow := hg.through hn hlook hm
      exact hg.exists_walk active m hbelow.1
    exact ⟨_, r, .through hlook hplan⟩
  | guard key again plan =>
    by_cases hkey : key ∈ active
    · exact ⟨_, again, .met hlook hkey⟩
    · -- a new key: the places inside may be as deep as they like, fewer keys are left
      obtain ⟨ts, r, hplan⟩ := exists_walk_plan plan fun m hm => by
        have hless := card_sdiff_insert_lt (hg.key_mem hn hlook) hkey
        exact hg.exists_walk (insert key active) m (hg.inside hn hlook hm)
      have hentered := Walks.entered hlook hkey hplan
      rw [Finset.erase_insert hkey] at hentered
      exact ⟨_, r, hentered⟩
-- either a key more is in progress, or as many are and the place is less deep
termination_by ((keys \ active).card, depth n)
decreasing_by
  · exact Prod.Lex.right _ hbelow.2
  · exact Prod.Lex.left _ _ hless

end Ending

/-! ### The branches of a walk -/

/-- A step on a branch of the recursion. -/
inductive Crumb (N K : Type) where
  | passed (n : N)
  | entered (key : K)

/-- The key of a guarded place that was entered. -/
def Crumb.key? : Crumb N K → Option K
  | passed _ => none
  | entered key => some key

/-- **The branches of the recursion**, each down to some point. -/
inductive Trace.Branch : Trace N K → List (Crumb N K) → Prop
  | stop (t : Trace N K) : Branch t []
  | passed (n : N) (ts : List (Trace N K)) : Branch (.through n ts) [.passed n]
  | through {n : N} {ts : List (Trace N K)} {t : Trace N K} {path : List (Crumb N K)} (ht : t ∈ ts)
      (h : Branch t path) : Branch (.through n ts) (.passed n :: path)
  | entered (key : K) (ts : List (Trace N K)) : Branch (.entered key ts) [.entered key]
  | inside {key : K} {ts : List (Trace N K)} {t : Trace N K} {path : List (Crumb N K)} (ht : t ∈ ts)
      (h : Branch t path) : Branch (.entered key ts) (.entered key :: path)

/-- The keys that are entered on a path. -/
def keysOn (path : List (Crumb N K)) : List K := path.filterMap Crumb.key?

/-- **A guarded path.** No key is entered twice, and none that was in progress before; so no more are
entered than there are. In between the path passes through places of one sort only, except at its
end, and never through too many of them in turn. -/
structure Guarded (compound : N → Prop) (keys active : Finset K) (bound : Nat)
    (path : List (Crumb N K)) : Prop where
  nodup : (keysOn path).Nodup
  new : ∀ key ∈ keysOn path, key ∈ keys ∧ key ∉ active
  nesting : (keysOn path).length ≤ keys.card
  compound : ∀ n, .passed n ∈ path.dropLast → compound n
  runs : ∀ run, run <:+: path → (∀ c ∈ run, c.key? = none) → run.length ≤ bound + 1

/-- One step goes to a place that is less deep, unless a guard stands before it or after it. -/
def Descends (depth : N → Nat) (c c' : Crumb N K) : Prop :=
  ∀ n m, c = .passed n → c' = .passed m → depth m < depth n

/-- The places with which a walk may begin. -/
def Part.Begins (m : N) : Part N R → Prop
  | place n => m = n
  | plan p => p.Mentions m

/-- What holds of the branches of a walk while it is followed upwards: besides what a guarded path
has to satisfy, the path descends, and begins where the walk does. -/
structure Sound (compound : N → Prop) (keys : Finset K) (depth : N → Nat) (bound : Nat)
    (active : Finset K) (part : Part N R) (path : List (Crumb N K)) : Prop where
  nodup : (keysOn path).Nodup
  new : ∀ key ∈ keysOn path, key ∈ keys ∧ key ∉ active
  compound : ∀ n, .passed n ∈ path.dropLast → compound n
  depth_le : ∀ n, .passed n ∈ path → depth n ≤ bound
  descends : path.IsChain (Descends depth)
  begins : ∀ n, path.head? = some (.passed n) → part.Begins n

/-- After a place there come no more places than it is deep, until a guard. -/
theorem length_le_depth {depth : N → Nat} {n : N} {run : List (Crumb N K)}
    (hdescends : (.passed n :: run).IsChain (Descends depth)) (hrun : ∀ c ∈ run, c.key? = none) :
    run.length ≤ depth n := by
  -- `n` is general, as the depth to count from falls with each place
  induction run generalizing n with
  | nil => exact Nat.zero_le _
  | cons c run ih =>
    obtain ⟨hc, hrest⟩ := List.forall_mem_cons.1 hrun
    cases c with
    | entered key => cases hc
    | passed m =>
      obtain ⟨hstep, hchain⟩ := List.isChain_cons_cons.1 hdescends
      have hless : depth m < depth n := hstep n m rfl rfl
      have hlength : run.length ≤ depth m := ih hchain hrest
      rw [List.length_cons]
      omega

namespace Sound

variable {compound : N → Prop} {keys active : Finset K} {depth : N → Nat} {bound : Nat}
  {part part' : Part N R} {path : List (Crumb N K)}

theorem nil : Sound compound keys depth bound active part [] where
  nodup := List.nodup_nil
  new := nofun
  compound := nofun
  depth_le := nofun
  descends := .nil
  begins := nofun

/-- Where a walk may begin in more ways, nothing else changes. -/
theorem mono (h : Sound compound keys depth bound active part path)
    (hbegins : ∀ n, part.Begins n → part'.Begins n) :
    Sound compound keys depth bound active part' path :=
  { h with begins := fun n hn => hbegins n (h.begins n hn) }

/-- A step through a place without a guard. -/
theorem pass {n : N} {plan : Plan N R}
    (h : Sound compound keys depth bound active (.plan plan) path) (hbound : depth n ≤ bound)
    (hcompound : path ≠ [] → compound n) (hless : ∀ m, plan.Mentions m → depth m < depth n) :
    Sound compound keys depth bound active (.place n : Part N R) (.passed n :: path) where
  nodup := h.nodup
  new := h.new
  compound m hm := by
    -- the last step of a path may go anywhere; if there is a path below, `n` is not the last
    cases path with
    | nil => cases hm
    | cons c path =>
      rw [List.dropLast_cons_cons, List.mem_cons] at hm
      rcases hm with hm | hm
      · cases hm
        exact hcompound (List.cons_ne_nil c path)
      · exact h.compound m hm
  depth_le m hm := by
    rcases List.mem_cons.1 hm with hm | hm
    · cases hm
      exact hbound
    · exact h.depth_le m hm
  descends := by
    cases path with
    | nil => exact .singleton _
    | cons c path =>
      refine List.isChain_cons_cons.2 ⟨?_, h.descends⟩
      -- what comes next is a place that the plan mentions
      rintro _ m ⟨⟩ rfl
      exact hless m (h.begins m rfl)
  begins m hm := by
    cases hm
    rfl

/-- A step into a guarded place. -/
theorem enter [DecidableEq K] {key : K}
    (h : Sound compound keys depth bound (insert key active) part path) (hmem : key ∈ keys)
    (hkey : key ∉ active) :
    Sound compound keys depth bound active part' (.entered key :: path) where
  nodup := by
    -- below, all keys are new to a set that has `key` already
    refine List.nodup_cons.2 ⟨fun hagain => ?_, h.nodup⟩
    exact (h.new key hagain).2 (Finset.mem_insert_self key active)
  new key' hkey' := by
    rcases List.mem_cons.1 hkey' with rfl | hkey'
    · exact ⟨hmem, hkey⟩
    · obtain ⟨hmem', hnew⟩ := h.new key' hkey'
      exact ⟨hmem', fun hold => hnew (Finset.mem_insert_of_mem hold)⟩
  compound m hm := by
    cases path with
    | nil => cases hm
    | cons c path =>
      rw [List.dropLast_cons_cons, List.mem_cons] at hm
      exact h.compound m (hm.resolve_left nofun)
  depth_le m hm := h.depth_le m ((List.mem_cons.1 hm).resolve_left nofun)
  descends := by
    cases path with
    | nil => exact .singleton _
    | cons c path => exact List.isChain_cons_cons.2 ⟨nofun, h.descends⟩
  begins := nofun

/-- What has been carried along a path makes it a guarded one. -/
theorem guarded [DecidableEq K] (h : Sound compound keys depth bound active part path) :
    Guarded compound keys active bound path where
  nodup := h.nodup
  new := h.new
  nesting := by
    -- keys without repetition, all from one finite set
    have hsubset : (keysOn path).toFinset ⊆ keys := fun key hkey =>
      (h.new key (List.mem_toFinset.1 hkey)).1
    rw [← List.toFinset_card_of_nodup h.nodup]
    exact Finset.card_le_card hsubset
  compound := h.compound
  runs run hpart hrun := by
    cases run with
    | nil => exact Nat.zero_le _
    | cons c run =>
      obtain ⟨hc, hrest⟩ := List.forall_mem_cons.1 hrun
      cases c with
      | entered key => cases hc
      | passed n =>
        -- the rest of the run comes after a place, which is no deeper than the bound
        have hn : Crumb.passed n ∈ path := List.IsInfix.subset hpart List.mem_cons_self
        have hbound : depth n ≤ bound := h.depth_le n hn
        have hchain := List.IsChain.infix h.descends hpart
        have hlength : run.length ≤ depth n := length_le_depth hchain hrest
        rw [List.length_cons]
        omega

end Sound

section Branches

variable [DecidableEq K] {look : N → Look N K R} {In compound : N → Prop} {keys : Finset K}
  {depth : N → Nat} {bound : Nat} {active active' : Finset K} {part : Part N R}
  {ts : List (Trace N K)} {r : R}

/-- A plan that was walked with a visit mentions a place. -/
theorem Walks.exists_mentions {plan : Plan N R} (h : Walks look active (.plan plan) ts r active')
    {t : Trace N K} (ht : t ∈ ts) : ∃ m, plan.Mentions m := by
  cases h with
  | answer => cases ht
  | visit first rest => exact ⟨_, .here _⟩

/-- **The branches of a walk.** -/
theorem Walks.sound (hg : Guards look In keys depth bound)
    (hcompound : ∀ {n plan m}, look n = .through plan → plan.Mentions m → compound n)
    (h : Walks look active part ts r active') (hIn : ∀ m, part.Begins m → In m) {t : Trace N K}
    (ht : t ∈ ts) {path : List (Crumb N K)} (hpath : t.Branch path) :
    Sound compound keys depth bound active part path := by
  -- on the walk; a branch is cut off anywhere, so `path` has a case for each way to go on
  induction h generalizing t path with
  | @through active active' n plan ts r hlook hplan ih =>
    have hn : In n := hIn n rfl
    have hbelow : ∀ m, plan.Mentions m → In m ∧ depth m < depth n :=
      fun m hm => hg.through hn hlook hm
    cases List.mem_singleton.1 ht
    cases hpath with
    | stop => exact .nil
    | passed =>
      exact Sound.nil.pass (hg.depth_le hn) (absurd rfl) fun m hm => (hbelow m hm).2
    | through ht' hpath' =>
      -- the branch goes on below `n`, so the plan has a visit and `n` is compound
      obtain ⟨m, hm⟩ := hplan.exists_mentions ht'
      exact (ih (fun m hm => (hbelow m hm).1) ht' hpath').pass (hg.depth_le hn)
        (fun _ => hcompound hlook hm) fun m hm => (hbelow m hm).2
  | met =>
    cases List.mem_singleton.1 ht
    cases hpath
    exact .nil
  | @entered active active' n key again plan ts r hlook hkey _ ih =>
    have hn : In n := hIn n rfl
    have hmem : key ∈ keys := hg.key_mem hn hlook
    cases List.mem_singleton.1 ht
    cases hpath with
    | stop => exact .nil
    | entered =>
      -- the branch that stops at the key: there is nothing below it yet
      have hnil : Sound compound keys depth bound (insert key active) (.place n : Part N R) [] := .nil
      exact hnil.enter hmem hkey
    | inside ht' hpath' =>
      exact (ih (fun m hm => hg.inside hn hlook hm) ht' hpath').enter hmem hkey
  | answer => cases ht
  | @visit active active₁ active₂ n next t₁ ts r r' first rest ihfirst ihrest =>
    rcases List.mem_cons.1 ht with rfl | ht
    · -- the branch lies in the first visit, and the plan mentions its place
      have hfirst := ihfirst (fun m hm => hIn m (by rw [hm]; exact .here next))
        (List.mem_singleton_self t) hpath
      refine hfirst.mono fun m hm => ?_
      rw [hm]
      exact .here next
    · -- the visits that follow begin with what was in progress before
      rw [first.active_eq] at ihrest
      have hrest := ihrest (fun m hm => hIn m hm.later) ht hpath
      exact hrest.mono fun m hm => hm.later

end Branches

/-! ### What a walk answers -/

/-- **Answers without a set.** These are the answers for each state of progress, which may be kept in
whatever form, if a place has the answer of its plan, and under a guard that of the plan with one
more key in progress. -/
structure Solves {P : Type} [DecidableEq K] (look : N → Look N K R) (keysOf : P → Finset K)
    (F : P → N → R) : Prop where
  through : ∀ {p n plan}, look n = .through plan → F p n = plan.eval (F p)
  met : ∀ {p n key again plan}, look n = .guard key again plan → key ∈ keysOf p → F p n = again
  entered : ∀ {p n key again plan}, look n = .guard key again plan → key ∉ keysOf p →
    ∃ p', keysOf p' = insert key (keysOf p) ∧ F p n = plan.eval (F p')

/-- The answer to a part of a walk. -/
def Part.eval (F : N → R) : Part N R → R
  | place n => F n
  | plan p => p.eval F

/-- A walk comes to the answer. -/
theorem Walks.eq_eval {P : Type} [DecidableEq K] {look : N → Look N K R} {keysOf : P → Finset K}
    {F : P → N → R} (hF : Solves look keysOf F) {active active' : Finset K} {part : Part N R}
    {ts : List (Trace N K)} {r : R} (h : Walks look active part ts r active') {p : P}
    (hp : keysOf p = active) : r = part.eval (F p) := by
  -- `p` is general: inside a guard the answers are those of another state of progress
  induction h generalizing p with
  | through hlook _ ih => exact (ih hp).trans (hF.through hlook).symm
  | met hlook hkey => exact (hF.met hlook (hp ▸ hkey)).symm
  | entered hlook hkey _ ih =>
    obtain ⟨p', hp', heval⟩ := hF.entered hlook (hp ▸ hkey)
    exact (ih (hp'.trans (by rw [hp]))).trans heval.symm
  | answer => rfl
  | visit first _ ihfirst ihrest =>
    -- the first visit has left the set as it was, so the same `p` serves for the rest
    have hrest := ihrest (hp.trans first.active_eq.symm)
    rw [ihfirst hp] at hrest
    exact hrest

/-! ### Walks that end -/

/-- **The walk from a place ends** with an answer. There is one walk, which has that answer; it
leaves what was in progress as it was; and its recursion has guarded branches only. -/
def Ends [DecidableEq K] (look : N → Look N K R) (compound : N → Prop) (keys : Finset K)
    (bound : Nat) (active : Finset K) (n : N) (r : R) : Prop :=
  ∃ t, (∀ ts r' active', Walks look active (.place n) ts r' active' ↔
      ts = [t] ∧ r' = r ∧ active' = active) ∧
    ∀ path, t.Branch path → Guarded compound keys active bound path

/-- Walks with guards that suffice end with the answers that solve them. -/
theorem Guards.ends {P : Type} [DecidableEq K] {look : N → Look N K R} {In compound : N → Prop}
    {keys : Finset K} {depth : N → Nat} {bound : Nat} {keysOf : P → Finset K} {F : P → N → R}
    (hg : Guards look In keys depth bound)
    (hcompound : ∀ {n plan m}, look n = .through plan → plan.Mentions m → compound n)
    (hF : Solves look keysOf F) (p : P) {n : N} (hn : In n) :
    Ends look compound keys bound (keysOf p) n (F p n) := by
  obtain ⟨t, r, hwalk⟩ := hg.exists_walk (keysOf p) n hn
  -- a walk there is, and its answer can only be this one
  obtain rfl : r = F p n := hwalk.eq_eval hF rfl
  refine ⟨t, fun ts r' active' => ⟨fun h => h.unique hwalk, ?_⟩, fun path hpath => ?_⟩
  · rintro ⟨rfl, rfl, rfl⟩
    exact hwalk
  · have hIn : ∀ m, (Part.place n : Part N R).Begins m → In m := by
      rintro m rfl
      exact hn
    exact (hwalk.sound hg hcompound hIn (List.mem_singleton_self t) hpath).guarded

end Callable.Walk
