import Mathlib.Logic.Relation
import Quarry.Database.Rush
import Quarry.Proofs.Database.Sweeping

/-!
# One pool for all

Many calls may need the pool of a MySQL server at a time, and what can happen next to them is
`Rush.Step`. The second look is what makes the difference: whoever has the lock and finds no pool
knows that none was created, since a call that has got one keeps the lock until the pool can be seen
(`Rush.Sound.noneCreated`).
-/

set_option autoImplicit false

namespace Quarry

variable {δ : Type}

namespace Mysql

variable {w : Wire δ} {s : Settings}

/-! ## What the parts ask for -/

section Recorded

variable {world after : World (δ × List Exchange)}

/-- Asking for a pool is one exchange, unless the settings do not allow to ask. -/
theorem requestPool_cases {r : Except Error (Except Error Answer)}
    (hrun : (requestPool w.recorded s).runOn world = (r, after)) :
    (∃ e, r = .error e ∧ after = world) ∨
      ∃ options outcome, r = .ok outcome ∧ after.pool = world.pool ∧
        after.outside.2 = world.outside.2 ++ [⟨.createPool options, outcome⟩] := by
  unfold requestPool at hrun
  cases hoptions : poolOptions s with
  | error e =>
    rw [hoptions] at hrun
    obtain ⟨rfl, rfl⟩ := Prod.mk.inj hrun
    exact .inl ⟨e, rfl, rfl⟩
  | ok options =>
    have hset : (Act.ofExcept (poolOptions s) : Act (World (δ × List Exchange)) Record).runOn world =
        (.ok options, world) := by rw [Act.runOn_ofExcept, hoptions]
    rw [Act.runOn_bind_ok hset, Act.runOn_attempt] at hrun
    obtain ⟨rfl, rfl⟩ := Prod.mk.inj hrun
    exact .inr ⟨options, _, rfl, rfl, rfl⟩

/-- The background task is asked for once, if there are to be sweeps. -/
theorem startSweeper_asks (w : Wire δ) (s : Settings) (world : World (δ × List Exchange)) :
    ((startSweeper w.recorded s).runOn world).2.pool = world.pool ∧
      ∃ started, ((startSweeper w.recorded s).runOn world).2.outside.2 = world.outside.2 ++ started ∧
        started.all (! Exchange.isCreation ·) = true ∧
        started.countP Exchange.isSweeperStart = if s.sweepInterval.isPositive then 1 else 0 := by
  unfold startSweeper Value.isPositive
  have hcheck : (Act.ofExcept (s.sweepInterval.isAbove (.int 0)) : Act (World (δ × List Exchange)) Bool).runOn
      world = (s.sweepInterval.isAbove (.int 0), world) := rfl
  cases hpositive : s.sweepInterval.isAbove (.int 0) with
  | error e =>
    rw [hpositive] at hcheck
    rw [Act.runOn_bind_error hcheck]
    exact ⟨rfl, [], by simp, rfl, rfl⟩
  | ok positive =>
    rw [hpositive] at hcheck
    rw [Act.runOn_bind_ok hcheck]
    cases positive with
    | false => exact ⟨rfl, [], by simp, rfl, rfl⟩
    | true =>
      cases hsend : (World.send w.recorded .startSweeper).runOn world with
      | mk r after =>
        obtain ⟨hpool, hrecord⟩ : after.pool = world.pool ∧
            after.outside.2 = world.outside.2 ++ [⟨.startSweeper, r⟩] := by
          obtain ⟨rfl, rfl⟩ := Prod.mk.inj hsend
          exact ⟨rfl, rfl⟩
        rw [if_pos rfl]
        cases r with
        | error e =>
          rw [Act.runOn_bind_error hsend]
          exact ⟨hpool, _, hrecord, rfl, rfl⟩
        | ok a =>
          rw [Act.runOn_bind_ok hsend]
          exact ⟨hpool, _, hrecord, rfl, rfl⟩

/-- An error leaves everything as it is. With a pool, the background task is started if there are to
be sweeps. -/
theorem installPool_cases {outcome : Except Error Answer} {r : Except Error Pool}
    (hrun : (installPool w.recorded s outcome).runOn world = (r, after)) :
    (∃ e, outcome = .error e ∧ r = .error e ∧ after = world) ∨
      ∃ a started, outcome = .ok a ∧ after.pool.isSome = true ∧
        after.outside.2 = world.outside.2 ++ started ∧ started.all (! Exchange.isCreation ·) = true ∧
        started.countP Exchange.isSweeperStart = if s.sweepInterval.isPositive then 1 else 0 := by
  cases outcome with
  | error e =>
    obtain ⟨rfl, rfl⟩ := Prod.mk.inj hrun
    exact .inl ⟨e, rfl, rfl, rfl⟩
  | ok a =>
    -- The world when the pool is set up and its creation is logged.
    obtain ⟨between, hpool, hrecord, hbetween⟩ : ∃ between : World (δ × List Exchange),
        between.pool.isSome = true ∧ between.outside.2 = world.outside.2 ∧
        (installPool w.recorded s (.ok a)).runOn world =
          (do startSweeper w.recorded s; return ({ maxSize := s.connectionLimit } : Pool)
            : Act _ Pool).runOn between :=
      ⟨{ world with pool := some { maxSize := s.connectionLimit }, log := _ }, rfl, rfl, rfl⟩
    obtain ⟨hkept, started, hstarted⟩ := startSweeper_asks w s between
    have hafter : after = ((startSweeper w.recorded s).runOn between).2 := by
      rw [hbetween, Act.runOn_bind_pure] at hrun
      exact (congrArg Prod.snd hrun).symm
    rw [hafter, hkept, ← hrecord]
    exact .inr ⟨a, started, rfl, hpool, hstarted⟩

end Recorded

/-! ## What holds all the time -/

/-- Nobody has the lock still if one call goes on without it. -/
theorem Stage.hasLock_update {calls : ℕ → Stage} {stage : Stage} (hfree : ∀ j, (calls j).hasLock = false)
    (hstage : stage.hasLock = false) (i j : ℕ) : (Function.update calls i stage j).hasLock = false := by
  rw [Function.update_apply]
  split_ifs
  · exact hstage
  · exact hfree j

/-- Whether no pool was created in some exchanges. -/
def NoneCreated (record : List Exchange) : Prop := ∀ x ∈ record, x.hasCreated = false

/-- Whether a pool was created in the exchange with a number. -/
def CreatedBy (record : List Exchange) (number : ℕ) : Prop :=
  ∃ x, record[number]? = some x ∧ x.hasCreated = true

/-- What a call knows of what all calls see. -/
def Stage.Fits (t : Shared δ) : Stage → Prop
  | .asking number outcome => t.origin = none ∧
      if outcome.isOk then CreatedBy t.record number else NoneCreated t.record
  | .returned _ origin => origin = t.origin ∧ t.origin.isSome = true
  | _ => True

/-- At most one call has the lock. Nobody asks for a pool after one was created. Whether there is a
pool is known to everyone who needs to know it. The background task was asked for with the pool. -/
structure Rush.Sound (s : Settings) (r : Rush δ) : Prop where
  alone : ∀ i j, (r.calls i).hasLock = true → (r.calls j).hasLock = true → i = j
  ordered : r.shared.record.Pairwise fun x y => x.hasCreated = true → y.isCreation = false
  present : r.shared.world.pool.isSome = r.shared.origin.isSome
  made : ∀ number, r.shared.origin = some number → CreatedBy r.shared.record number
  unmade : r.shared.origin = none → (∀ i, (r.calls i).isAsking = false) → NoneCreated r.shared.record
  fits : ∀ i, (r.calls i).Fits r.shared
  started : r.shared.record.countP Exchange.isSweeperStart =
    if r.shared.origin.isSome && s.sweepInterval.isPositive then 1 else 0

/-- What was created stays so in a longer record. -/
theorem CreatedBy.append {record : List Exchange} {number : ℕ} (h : CreatedBy record number)
    (more : List Exchange) : CreatedBy (record ++ more) number := by
  obtain ⟨x, hx, hcreated⟩ := h
  exact ⟨x, by rw [List.getElem?_append_left (List.getElem?_eq_some_iff.mp hx).1, hx], hcreated⟩

/-- Nothing is created by requests that create nothing. -/
theorem NoneCreated.append {record more : List Exchange} (h : NoneCreated record)
    (hmore : more.all (! Exchange.isCreation ·) = true) : NoneCreated (record ++ more) := by
  intro x hx
  obtain hx | hx := List.mem_append.mp hx
  · exact h x hx
  · have hother := List.all_eq_true.mp hmore x hx
    simp [Exchange.hasCreated, (Bool.not_eq_true' _).mp hother]

namespace Rush.Sound

variable {r : Rush δ} {i : ℕ} {stage : Stage} {t : Shared δ}

/-- Exchanges that ask for no pool do not change the order. -/
theorem ordered_append (h : r.Sound s) {more : List Exchange}
    (hmore : more.all (! Exchange.isCreation ·) = true) :
    (r.shared.record ++ more).Pairwise fun x y => x.hasCreated = true → y.isCreation = false := by
  have hother : ∀ y ∈ more, y.isCreation = false :=
    fun y hy => (Bool.not_eq_true' _).mp (List.all_eq_true.mp hmore y hy)
  exact List.pairwise_append.mpr ⟨h.ordered,
    List.pairwise_of_forall_mem_list fun x _ y hy _ => hother y hy, fun x _ y hy _ => hother y hy⟩

/-- Only one call has the lock still if the one that goes on is alone with it. -/
theorem alone_update (h : r.Sound s)
    (hnow : stage.hasLock = true → ∀ j, (r.calls j).hasLock = true → j = i) (j k : ℕ)
    (hj : (Function.update r.calls i stage j).hasLock = true)
    (hk : (Function.update r.calls i stage k).hasLock = true) : j = k := by
  rw [Function.update_apply] at hj hk
  split_ifs at hj hk with hji hki hki
  · rw [hji, hki]
  · rw [hji, hnow hj k hk]
  · rw [hki, hnow hk j hj]
  · exact h.alone j k hj hk

/-- A call goes on, and all calls see what they have seen. -/
theorem quiet (h : r.Sound s) (hnow : stage.hasLock = true → ∀ j, (r.calls j).hasLock = true → j = i)
    (hfits : stage.Fits r.shared)
    (hbefore : (r.calls i).isAsking = true → NoneCreated r.shared.record) :
    Rush.Sound s ⟨r.shared, Function.update r.calls i stage⟩ where
  alone := h.alone_update hnow
  ordered := h.ordered
  present := h.present
  made := h.made
  unmade := by
    intro horigin hnobody
    cases hi : (r.calls i).isAsking with
    | true => exact hbefore hi
    | false =>
      refine h.unmade horigin fun j => ?_
      by_cases hj : j = i
      · rw [hj, hi]
      · simpa [hj] using hnobody j
  fits := (Function.forall_update_iff r.calls fun _ stage => stage.Fits r.shared).mpr
    ⟨hfits, fun j _ => h.fits j⟩
  started := h.started

/-- Without a pool no exchange is known in which it was made. -/
theorem origin_eq_none (h : r.Sound s) (hpool : r.shared.world.pool = none) : r.shared.origin = none := by
  simpa [hpool] using h.present.symm

/-- What is known of the calls besides one that has the lock. -/
theorem fits_others (h : r.Sound s) (hlock : (r.calls i).hasLock = true) (horigin : r.shared.origin = none) :
    ∀ j ≠ i, (r.calls j).Fits t ∧ (r.calls j).isAsking = false := by
  intro j hj
  have hfits := h.fits j
  cases hstage : r.calls j with
  | asking number outcome => exact absurd (h.alone j i (by rw [hstage]; rfl) hlock) hj
  | returned p origin =>
    rw [hstage, Stage.Fits, horigin] at hfits
    exact absurd hfits.2 Bool.false_ne_true
  | _ => exact ⟨trivial, rfl⟩

/-- The other calls still fit when the one that has the lock goes on. -/
theorem fits_update (h : r.Sound s) (hlock : (r.calls i).hasLock = true) (horigin : r.shared.origin = none)
    (hfits : stage.Fits t) : ∀ j, (Function.update r.calls i stage j).Fits t :=
  (Function.forall_update_iff r.calls fun _ stage => stage.Fits t).mpr
    ⟨hfits, fun j hj => (h.fits_others hlock horigin j hj).1⟩

/-- Who has the lock and finds no pool may ask for one: none was created. -/
theorem noneCreated (h : r.Sound s) (hcall : r.calls i = .holding) (hpool : r.shared.world.pool = none) :
    NoneCreated r.shared.record := by
  have horigin := h.origin_eq_none hpool
  have hlock : (r.calls i).hasLock = true := by rw [hcall]; rfl
  refine h.unmade horigin fun j => ?_
  by_cases hj : j = i
  · rw [hj, hcall]
    rfl
  · exact (h.fits_others (t := r.shared) hlock horigin j hj).2

/-- A call with the lock asks for a pool. -/
theorem asked (h : r.Sound s) (hcall : r.calls i = .holding) (hpool : r.shared.world.pool = none)
    {world : World (δ × List Exchange)} {options : Record} {outcome : Except Error Answer}
    (hkept : world.pool = r.shared.world.pool)
    (hrecord : world.outside.2 = r.shared.record ++ [⟨.createPool options, outcome⟩]) :
    Rush.Sound s ⟨⟨world, r.shared.origin⟩,
      Function.update r.calls i (.asking r.shared.record.length outcome)⟩ := by
  have horigin := h.origin_eq_none hpool
  have hlock : (r.calls i).hasLock = true := by rw [hcall]; rfl
  have hnone := h.noneCreated hcall hpool
  have hfits : (Stage.asking r.shared.record.length outcome).Fits ⟨world, r.shared.origin⟩ := by
    refine ⟨horigin, ?_⟩
    rw [Shared.record, hrecord]
    cases outcome with
    | ok a => exact ⟨_, List.getElem?_concat_length, rfl⟩
    | error e =>
      intro x hx
      obtain hx | hx := List.mem_append.mp hx
      · exact hnone x hx
      · rw [List.mem_singleton.mp hx]
        rfl
  refine ⟨h.alone_update fun _ j hj => h.alone j i hj hlock, ?_, ?_, ?_, ?_, ?_, ?_⟩
  · rw [Shared.record, hrecord]
    refine List.pairwise_append.mpr ⟨h.ordered, List.pairwise_singleton _ _, fun x hx _ _ hcreated => ?_⟩
    exact absurd hcreated (by simp [hnone x hx])
  · exact (congrArg Option.isSome hkept).trans h.present
  · intro number hmade
    exact absurd (horigin.symm.trans hmade) (Option.some_ne_none number).symm
  · intro _ hnobody
    exact absurd (hnobody i) (by simp [Stage.isAsking])
  · exact h.fits_update hlock horigin hfits
  · rw [Shared.record, hrecord, List.countP_append, h.started]
    rfl

/-- A call that has asked for a pool sets it up. -/
theorem answered (h : r.Sound s) {number : ℕ} {a : Answer} (hcall : r.calls i = .asking number (.ok a))
    {world : World (δ × List Exchange)} {started : List Exchange} (hpool : world.pool.isSome = true)
    (hrecord : world.outside.2 = r.shared.record ++ started)
    (hother : started.all (! Exchange.isCreation ·) = true)
    (hstarted : started.countP Exchange.isSweeperStart = if s.sweepInterval.isPositive then 1 else 0)
    (result : Except Error Pool) :
    Rush.Sound s ⟨⟨world, some number⟩, Function.update r.calls i (.ended (some number) result)⟩ := by
  have hlock : (r.calls i).hasLock = true := by rw [hcall]; rfl
  have hknown := h.fits i
  rw [hcall] at hknown
  obtain ⟨horigin, hcreated⟩ : r.shared.origin = none ∧ CreatedBy r.shared.record number := hknown
  have hfits : (Stage.ended (some number) result).Fits ⟨world, some number⟩ := by
    cases result with
    | ok p => exact ⟨rfl, rfl⟩
    | error e => trivial
  refine ⟨h.alone_update fun _ j hj => h.alone j i hj hlock, ?_, hpool, ?_, nofun, ?_, ?_⟩
  · rw [Shared.record, hrecord]
    exact h.ordered_append hother
  · rintro _ ⟨⟩
    rw [Shared.record, hrecord]
    exact hcreated.append started
  · exact h.fits_update hlock horigin hfits
  · have hbefore : r.shared.record.countP Exchange.isSweeperStart = 0 := by
      rw [h.started, horigin]
      rfl
    rw [Shared.record, hrecord, List.countP_append, hbefore, hstarted, Nat.zero_add]
    rfl

/-- Other exchanges tell the calls nothing new. -/
theorem changed (h : r.Sound s) {world : World (δ × List Exchange)} {more : List Exchange}
    (hpool : world.pool.isSome = r.shared.world.pool.isSome)
    (hrecord : world.outside.2 = r.shared.record ++ more) (hforeign : more.all Exchange.isForeign = true) :
    Rush.Sound s ⟨⟨world, r.shared.origin⟩, r.calls⟩ := by
  have hparts : ∀ x ∈ more, x.isCreation = false ∧ x.isSweeperStart = false := fun x hx => by
    simpa [Exchange.isForeign] using List.all_eq_true.mp hforeign x hx
  have hother : more.all (! Exchange.isCreation ·) = true :=
    List.all_eq_true.mpr fun x hx => by simp [(hparts x hx).1]
  have hstarts : more.countP Exchange.isSweeperStart = 0 :=
    List.countP_eq_zero.mpr fun x hx => by simp [(hparts x hx).2]
  have hall : (⟨world, r.shared.origin⟩ : Shared δ).record = r.shared.record ++ more := hrecord
  refine ⟨h.alone, ?_, hpool.trans h.present, ?_, ?_, fun i => ?_, ?_⟩
  · rw [hall]
    exact h.ordered_append hother
  · intro number hmade
    rw [hall]
    exact (h.made number hmade).append more
  · intro horigin hnobody
    rw [hall]
    exact (h.unmade horigin hnobody).append hother
  · have hfits := h.fits i
    cases hcall : r.calls i with
    | asking number outcome =>
      rw [hcall] at hfits
      obtain ⟨horigin, hcreated⟩ := hfits
      refine ⟨horigin, ?_⟩
      rw [hall]
      split_ifs at hcreated ⊢
      · exact hcreated.append more
      · exact hcreated.append hother
    | returned p origin =>
      rw [hcall] at hfits
      exact hfits
    | _ => trivial
  · rw [hall, List.countP_append, hstarts, h.started]
    rfl

/-- However a call goes on. -/
theorem turned (h : r.Sound s) {shared : Shared δ} (hturn : Turn w s r.shared (r.calls i) shared stage) :
    Rush.Sound s ⟨shared, Function.update r.calls i stage⟩ := by
  have hthere {p : Pool} (hpool : r.shared.world.pool = some p) : r.shared.origin.isSome = true := by
    rw [← h.present, hpool, Option.isSome_some]
  generalize hcall : r.calls i = before at hturn
  cases hturn with
  | found hpool => exact h.quiet nofun ⟨rfl, hthere hpool⟩ (by rw [hcall]; exact nofun)
  | missed hpool => exact h.quiet nofun trivial (by rw [hcall]; exact nofun)
  | cancelled e => exact h.quiet nofun trivial (by rw [hcall]; exact nofun)
  | foundAgain hpool => exact h.quiet nofun ⟨rfl, hthere hpool⟩ (by rw [hcall]; exact nofun)
  | asked hpool hrun =>
    obtain ⟨e, rfl, rfl⟩ | ⟨options, outcome, rfl, hkept, hrecord⟩ := requestPool_cases hrun
    · exact h.quiet nofun trivial (by rw [hcall]; exact nofun)
    · exact h.asked hcall hpool hkept hrecord
  | @answered number outcome world result hrun =>
    obtain ⟨e, rfl, rfl, rfl⟩ | ⟨a, started, rfl, hpool, hrecord, hother, hstarted⟩ := installPool_cases hrun
    · have hknown := h.fits i
      rw [hcall] at hknown
      exact h.quiet nofun trivial fun _ => hknown.2
    · exact h.answered hcall hpool hrecord hother hstarted result

/-- Whatever happens next, all this goes on to hold. -/
theorem step {r' : Rush δ} (h : r.Sound s) (hstep : Rush.Step w s r r') : r'.Sound s := by
  cases hstep with
  | locked hcall hfree =>
    refine h.quiet (fun _ j hj => ?_) trivial (by rw [hcall]; exact nofun)
    rw [hfree j] at hj
    exact absurd hj Bool.false_ne_true
  | turned hturn => exact h.turned hturn
  | changed hpool hrecord hforeign => exact h.changed hpool hrecord hforeign

end Rush.Sound

/-- At the start all is sound. -/
theorem sound_start {world : World δ} (hpool : world.pool = none) : (Rush.start world).Sound s where
  alone _ _ hi _ := nomatch hi
  ordered := .nil
  present := congrArg Option.isSome hpool
  made _ hmade := nomatch hmade
  unmade _ _ _ hx := nomatch hx
  fits _ := trivial
  started := rfl

/-! ## What this means -/

/-- There is at most one pool for some calls, and at most one background task. -/
structure Rush.HasOnePool (s : Settings) (r : Rush δ) : Prop where
  /-- At most one pool was created. -/
  once : r.shared.record.countP Exchange.hasCreated ≤ 1
  /-- Nobody asked for a pool after one was created. -/
  last : r.shared.record.Pairwise fun x y => x.hasCreated = true → y.isCreation = false
  /-- The calls that have given a pool have given the one that is there. -/
  same : ∀ i p origin, r.calls i = .returned p origin → ∃ number, origin = some number ∧
    r.shared.origin = some number ∧ CreatedBy r.shared.record number
  /-- The pool that was created is there, or will be when the call that created it goes on. -/
  kept : ∀ x ∈ r.shared.record, x.hasCreated = true →
    r.shared.world.pool.isSome = true ∨ ∃ i number a, r.calls i = .asking number (.ok a)
  /-- The background task was asked for once if there is a pool and there are to be sweeps, and
  never else. -/
  started : r.shared.record.countP Exchange.isSweeperStart =
    if r.shared.world.pool.isSome && s.sweepInterval.isPositive then 1 else 0

/-- At most one pool is created if none is asked for after one was. -/
theorem countP_hasCreated_le_one {record : List Exchange}
    (h : record.Pairwise fun x y => x.hasCreated = true → y.isCreation = false) :
    record.countP Exchange.hasCreated ≤ 1 := by
  induction record with
  | nil => exact Nat.zero_le 1
  | cons x rest ih =>
    obtain ⟨hafter, hrest⟩ := List.pairwise_cons.mp h
    cases hx : x.hasCreated with
    | false =>
      rw [List.countP_cons_of_neg (by simp [hx])]
      exact ih hrest
    | true =>
      have hnone : rest.countP Exchange.hasCreated = 0 :=
        List.countP_eq_zero.mpr fun y hy => by simp [Exchange.hasCreated, hafter y hy hx]
      simp [List.countP_cons_of_pos hx, hnone]

namespace Rush.Sound

variable {r : Rush δ}

/-- A pool that was created gets lost nowhere. -/
theorem kept (h : r.Sound s) {x : Exchange} (hx : x ∈ r.shared.record) (hcreated : x.hasCreated = true) :
    r.shared.world.pool.isSome = true ∨ ∃ i number a, r.calls i = .asking number (.ok a) := by
  cases horigin : r.shared.origin with
  | some number =>
    refine .inl ?_
    rw [h.present, horigin, Option.isSome_some]
  | none =>
    refine .inr ?_
    by_contra hnobody
    have hnone : NoneCreated r.shared.record := by
      by_cases hasking : ∀ i, (r.calls i).isAsking = false
      · exact h.unmade horigin hasking
      · obtain ⟨i, hi⟩ := not_forall.mp hasking
        have hfits := h.fits i
        cases hcall : r.calls i with
        | asking number outcome =>
          rw [hcall] at hfits
          cases outcome with
          | ok a => exact absurd ⟨i, number, a, hcall⟩ hnobody
          | error e => exact hfits.2
        | _ => exact absurd (by rw [hcall]; rfl) hi
    rw [hnone x hx] at hcreated
    exact absurd hcreated Bool.false_ne_true

/-- In a sound state there is one pool for all. -/
theorem hasOnePool (h : r.Sound s) : r.HasOnePool s where
  once := countP_hasCreated_le_one h.ordered
  last := h.ordered
  same i p origin hcall := by
    have hfits := h.fits i
    rw [hcall] at hfits
    obtain ⟨rfl, hthere⟩ := hfits
    obtain ⟨number, hnumber⟩ := Option.isSome_iff_exists.mp hthere
    exact ⟨number, hnumber, hnumber, h.made number hnumber⟩
  kept _ hx hcreated := h.kept hx hcreated
  started := by rw [h.present, h.started]

end Rush.Sound

/-! ## A call on its own -/

section

variable {r : Rush δ} {i : ℕ}

/-- A call that has got as far as a stage goes on from there. -/
theorem Rush.Step.onward {shared shared' : Shared δ} {stage stage' : Stage} {calls : ℕ → Stage}
    (hturn : Turn w s shared stage shared' stage') :
    Rush.Step w s ⟨shared, Function.update calls i stage⟩ ⟨shared', Function.update calls i stage'⟩ := by
  have hstep : Rush.Step w s ⟨shared, Function.update calls i stage⟩
      ⟨shared', Function.update (Function.update calls i stage) i stage'⟩ :=
    .turned (by dsimp only; rw [Function.update_self]; exact hturn)
  rwa [Function.update_idem] at hstep

/-- A call that finds no pool gets the lock if no other one has it. -/
theorem steps_lock (hcall : r.calls i = .ahead) (hfree : ∀ j, (r.calls j).hasLock = false)
    (hpool : r.shared.world.pool = none) :
    Relation.ReflTransGen (Rush.Step w s) r ⟨r.shared, Function.update r.calls i .holding⟩ := by
  have hmissed : Rush.Step w s r ⟨r.shared, Function.update r.calls i .queued⟩ :=
    .turned (by rw [hcall]; exact .missed hpool)
  have hlocked : Rush.Step w s ⟨r.shared, Function.update r.calls i .queued⟩
      ⟨r.shared, Function.update (Function.update r.calls i .queued) i .holding⟩ :=
    .locked (Function.update_self ..) (Stage.hasLock_update hfree rfl i)
  rw [Function.update_idem] at hlocked
  exact (Relation.ReflTransGen.single hmissed).tail hlocked

/-- A call that no other one comes in between is one of the courses that calls can take. -/
theorem steps_ensurePool (hcall : r.calls i = .ahead) (hfree : ∀ j, (r.calls j).hasLock = false) :
    ∃ shared stage, Relation.ReflTransGen (Rush.Step w s) r ⟨shared, Function.update r.calls i stage⟩ ∧
      stage.outcome? = some ((ensurePool w.recorded s).runOn r.shared.world).1 ∧
      shared.world = ((ensurePool w.recorded s).runOn r.shared.world).2 := by
  have hlook : (Act.read World.pool).runOn r.shared.world = (.ok r.shared.world.pool, r.shared.world) := rfl
  unfold ensurePool setUpPool
  rw [Act.runOn_bind_ok hlook]
  cases hpool : r.shared.world.pool with
  | some p =>
    have hfound : Rush.Step w s r ⟨r.shared, Function.update r.calls i (.returned p r.shared.origin)⟩ :=
      .turned (by rw [hcall]; exact .found hpool)
    exact ⟨r.shared, _, .single hfound, rfl, rfl⟩
  | none =>
    have hlocked := steps_lock (w := w) (s := s) hcall hfree hpool
    rw [hpool] at hlook
    dsimp only
    rw [Act.runOn_bind_ok hlook]
    dsimp only
    cases hask : (requestPool w.recorded s).runOn r.shared.world with
    | mk asked between =>
      have hasked := hlocked.tail (.onward (.asked hpool hask))
      cases asked with
      | error e =>
        rw [Act.runOn_bind_error hask]
        exact ⟨_, .raised e, hasked, rfl, rfl⟩
      | ok outcome =>
        rw [Act.runOn_bind_ok hask]
        cases hinstall : (installPool w.recorded s outcome).runOn between with
        | mk result after =>
          have hended := hasked.tail (.onward (.answered hinstall))
          cases result <;> exact ⟨_, _, hended, rfl, rfl⟩

end

/-! ## At most one pool in every course -/

/-- From a database without a pool, whatever calls for it begin, wait, are cancelled, fail and end,
and whatever else happens but that the pool is closed: there is at most one pool for all of them. -/
theorem hasOnePool_of_steps {world : World δ} (hpool : world.pool = none) {r : Rush δ}
    (hsteps : Relation.ReflTransGen (Rush.Step w s) (.start world) r) : r.HasOnePool s := by
  have hsound : r.Sound s := by
    induction hsteps with
    | refl => exact sound_start hpool
    | tail _ hstep ih => exact ih.step hstep
  exact hsound.hasOnePool

/-- Two calls find no pool and wait for the lock. The first one that gets it fails, the second one
creates the pool, and a third one finds it. -/
theorem hasOnePool_of_two_tries :
    let w : Wire ℕ := ⟨fun _ => Act.ofFunction fun n => (if n = 0 then .error timeout else .ok {}, n + 1)⟩
    let s : Settings := { idleTimeout := .int 60, sweepInterval := .int 30 }
    let world : World ℕ := { outside := 0 }
    world.pool = none ∧ ∃ r p, Relation.ReflTransGen (Rush.Step w s) (.start world) r ∧
      r.calls 0 = .raised timeout ∧ r.calls 1 = .returned p (some 1) ∧ r.calls 2 = .returned p (some 1) ∧
      r.shared.record.length = 3 ∧ r.HasOnePool s := by
  intro w s world
  have hmissed : Relation.ReflTransGen (Rush.Step w s) (.start world) ⟨(Rush.start world).shared,
      Function.update (Function.update (fun _ => .ahead) 0 .queued) 1 .queued⟩ :=
    (Relation.ReflTransGen.single (.turned (.missed rfl))).tail (.turned (i := 1) (.missed rfl))
  have hfree : ∀ j, (Function.update (Function.update (fun _ => Stage.ahead) 0 .queued) 1 .queued j).hasLock =
      false := Stage.hasLock_update (Stage.hasLock_update (fun _ => rfl) rfl 0) rfl 1
  have hfirst := ((hmissed.tail (.locked (i := 0) rfl hfree)).tail (.onward (.asked rfl rfl))).tail
    (.onward (.answered rfl))
  have hsecond := ((hfirst.tail (.locked (i := 1) rfl (Stage.hasLock_update hfree rfl 0))).tail
    (.onward (.asked rfl rfl))).tail (.onward (.answered rfl))
  have hthird := hsecond.tail (.turned (i := 2) (.found rfl))
  exact ⟨rfl, _, _, hthird, rfl, rfl, rfl, rfl, hasOnePool_of_steps rfl hthird⟩

end Mysql

end Quarry
