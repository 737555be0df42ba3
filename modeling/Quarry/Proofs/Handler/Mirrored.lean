import Quarry.Proofs.Handler.Runs

/-!
# Handlers on adapters that mirror each other

Two adapters may keep different states and still do the same: begun in related states, each
operation of one ends like that of the other, and in related states again (`Adapter.Mirrors`).
Whatever a handler does on one of them it then does on the other. This is how what is known about
runs on an adapter that is watched in one way is carried over to the same adapter watched in another
way.

`Alike` is the judgement on acts. It has one rule for each way to make an act of others, and there
is one lemma for each stage of a run.
-/

set_option autoImplicit false

namespace Quarry

variable {σ τ α β γ : Type}

/-- Begun in related states, two acts end in the same way and in related states. -/
def Alike (R : σ → τ → Prop) (a : Act σ β) (b : Act τ β) : Prop :=
  ∀ s t, R s t → (a.runOn s).1 = (b.runOn t).1 ∧ R (a.runOn s).2 (b.runOn t).2

namespace Alike

variable {R : σ → τ → Prop} {a : Act σ β} {b : Act τ β}

/-- One outcome on both sides. -/
theorem ofExcept (outcome : Except Error β) :
    Alike R (Act.ofExcept outcome) (Act.ofExcept outcome) :=
  fun _ _ hst => ⟨rfl, hst⟩

/-- One result on both sides. -/
theorem pure (x : β) : Alike R (Pure.pure x) (Pure.pure x) := ofExcept (.ok x)

/-- One error on both sides. -/
theorem raise (e : Error) : Alike (β := β) R (throw e) (throw e) := ofExcept (.error e)

/-- Looks at the two sides that see the same. -/
theorem read {f : σ → β} {g : τ → β} (hlook : ∀ s t, R s t → f s = g t) :
    Alike R (Act.read f) (Act.read g) :=
  fun s t hst => ⟨congrArg Except.ok (hlook s t hst), hst⟩

/-- Changes of the two sides that keep them alike. -/
theorem update {f : σ → σ} {g : τ → τ} (hchange : ∀ s t, R s t → R (f s) (g t)) :
    Alike R (Act.update f) (Act.update g) :=
  fun s t hst => ⟨rfl, hchange s t hst⟩

/-- Steps that are alike, one after the other. -/
theorem bind {f : β → Act σ γ} {g : β → Act τ γ} (hab : Alike R a b)
    (hfg : ∀ x, Alike R (f x) (g x)) : Alike R (a >>= f) (b >>= g) := by
  intro s t hst
  obtain ⟨hends, hleft⟩ := hab s t hst
  cases ha : a.runOn s with
  | mk r s' =>
    cases hb : b.runOn t with
    | mk r' t' =>
      rw [ha, hb] at hends hleft
      obtain rfl : r = r' := hends
      cases r with
      | error e =>
        rw [Act.runOn_bind_error ha, Act.runOn_bind_error hb]
        exact ⟨rfl, hleft⟩
      | ok x =>
        rw [Act.runOn_bind_ok ha, Act.runOn_bind_ok hb]
        exact hfg x s' t' hleft

/-- Attempts of acts that are alike. -/
theorem attempt (hab : Alike R a b) : Alike R (Act.attempt a) (Act.attempt b) := by
  intro s t hst
  obtain ⟨hends, hleft⟩ := hab s t hst
  exact ⟨congrArg Except.ok hends, hleft⟩

end Alike

/-- Every operation of one adapter is like that of the other, as far as states are related. -/
structure Adapter.Mirrors (R : σ → τ → Prop) (a : Adapter σ) (b : Adapter τ) : Prop where
  description : a.description = b.description
  poolStatus : ∀ s t, R s t → a.poolStatus s = b.poolStatus t
  keeps : ∀ level s t, R s t → a.keeps level s = b.keeps level t
  log : ∀ level text s t, R s t → R (a.log level text s) (b.log level text t)
  strict : ∀ s t, R s t → a.strict s = b.strict t
  sleep : ∀ seconds, Alike R (a.sleep seconds) (b.sleep seconds)
  acquire : Alike R a.acquire b.acquire
  release : ∀ c, Alike R (a.release c) (b.release c)
  destroy : ∀ c, Alike R (a.destroy c) (b.destroy c)
  ping : ∀ c, Alike R (a.ping c) (b.ping c)
  begin : ∀ c, Alike R (a.begin c) (b.begin c)
  commit : ∀ c, Alike R (a.commit c) (b.commit c)
  rollback : ∀ c, Alike R (a.rollback c) (b.rollback c)

/-- A log record on both sides. -/
theorem Adapter.Mirrors.report {R : σ → τ → Prop} {a : Adapter σ} {b : Adapter τ}
    (hmirrors : a.Mirrors R b) (level : Level) (text : String) :
    Alike R (a.report level text) (b.report level text) :=
  .update (hmirrors.log level text)

/-- A log record with a text that may fail, on both sides. -/
theorem Adapter.Mirrors.reportWritten {R : σ → τ → Prop} {a : Adapter σ} {b : Adapter τ}
    (hmirrors : a.Mirrors R b) (level : Level) (text : Except Error String) :
    Alike R (a.reportWritten level text) (b.reportWritten level text) := by
  unfold Adapter.reportWritten
  cases text with
  | ok text => exact hmirrors.report level text
  | error e =>
    refine (Alike.read hmirrors.strict).bind fun strict => ?_
    cases strict with
    | false => exact .pure ()
    | true => exact .raise e

/-- Two handlers try equally often and long, on adapters that mirror each other. -/
structure Handler.Mirrors (R : σ → τ → Prop) (h : Handler σ) (k : Handler τ) : Prop where
  adapter : h.adapter.Mirrors R k.adapter
  retryCount : h.retryCount = k.retryCount
  retryDelay : h.retryDelay = k.retryDelay

namespace Handler.Mirrors

variable {R : σ → τ → Prop} {h : Handler σ} {k : Handler τ} {o : RunOptions} {c : Connection}
  {f : Connection → Act σ α} {g : Connection → Act τ α}

/-! ## Acquiring -/

/-- Both handlers report a failure. -/
theorem reportFailure (hmirrors : h.Mirrors R k) (e : Error) :
    Alike R (h.reportFailure e) (k.reportFailure e) := by
  have hadapter := hmirrors.adapter
  have hdescription : Alike R (Act.ofExcept h.adapter.description)
      (Act.ofExcept k.adapter.description) := hadapter.description ▸ Alike.ofExcept _
  refine (hadapter.report _ _).bind fun _ => hdescription.bind fun description => ?_
  refine (hadapter.report _ _).bind fun _ => (Alike.read hadapter.poolStatus).bind fun status => ?_
  exact (hadapter.report _ _).bind fun _ => hadapter.report _ _

/-- Both handlers show a pause. -/
theorem showPause (hmirrors : h.Mirrors R k) (total n : Nat) (last : Option Error) (delay : Value) :
    Alike R (h.showPause total n last delay) (k.showPause total n last delay) := by
  unfold Handler.showPause
  refine (Alike.read (hmirrors.adapter.keeps .debug)).bind fun kept => ?_
  cases kept with
  | false => exact .pure ()
  | true => exact hmirrors.adapter.reportWritten _ _

/-- Both handlers wait before a new try. -/
theorem waitBefore (hmirrors : h.Mirrors R k) (total n : Nat) (last : Option Error) :
    Alike R (h.waitBefore total n last) (k.waitBefore total n last) := by
  cases n with
  | zero => exact .pure ()
  | succ n =>
    rw [waitBefore_succ, waitBefore_succ, hmirrors.retryDelay]
    refine (Alike.ofExcept _).bind fun delay => ?_
    exact (hmirrors.showPause total (n + 1) last delay).bind fun _ => hmirrors.adapter.sleep delay

/-- Both handlers go on in one way with what they have acquired, if they go on trying in one way. -/
theorem afterAcquire (hmirrors : h.Mirrors R k) {total left n : Nat}
    (hrest : ∀ last, Alike R (h.tryAcquire total left (n + 1) last)
      (k.tryAcquire total left (n + 1) last)) (acquired : Except Error Connection) :
    Alike R (h.afterAcquire total left n acquired) (k.afterAcquire total left n acquired) := by
  unfold Handler.afterAcquire
  cases acquired with
  | error e =>
    cases htransient : e.isTransient with
    | true => simpa [htransient] using hrest (some e)
    | false =>
      cases hordinary : e.isOrdinary with
      | true =>
        simpa [htransient, hordinary] using (hmirrors.reportFailure e).bind fun _ => Alike.raise _
      | false => simpa [htransient, hordinary] using Alike.raise e
  | ok c =>
    refine (hmirrors.adapter.ping c).bind fun alive => ?_
    cases alive with
    | true => exact .pure c
    | false =>
      exact (hmirrors.adapter.report _ _).bind fun _ => (hmirrors.adapter.destroy c).bind fun _ =>
        hrest (some deadConnection)

/-- Both handlers try to acquire a connection. -/
theorem tryAcquire (hmirrors : h.Mirrors R k) (total left n : Nat) (last : Option Error) :
    Alike R (h.tryAcquire total left n last) (k.tryAcquire total left n last) := by
  -- the tries that are left go down, and what is remembered of the last one changes
  induction left generalizing n last with
  | zero =>
    rw [tryAcquire_zero, tryAcquire_zero]
    exact (hmirrors.reportFailure _).bind fun _ => .raise _
  | succ left ih =>
    rw [tryAcquire_succ, tryAcquire_succ]
    exact (hmirrors.waitBefore total n last).bind fun _ =>
      hmirrors.adapter.acquire.attempt.bind (hmirrors.afterAcquire (ih (n + 1)))

/-- Both handlers acquire a connection. -/
theorem acquire (hmirrors : h.Mirrors R k) : Alike R h.acquire k.acquire := by
  have htries : h.tries = k.tries := by
    unfold Handler.tries
    rw [hmirrors.retryCount]
  unfold Handler.acquire
  rw [htries]
  exact (Alike.ofExcept _).bind fun total => hmirrors.tryAcquire total total 0 none

/-! ## Working on a connection -/

/-- Both handlers do the work. -/
theorem body (hmirrors : h.Mirrors R k) (hwork : Alike R (f c) (g c)) :
    Alike R (h.body o c f) (k.body o c g) := by
  cases htransaction : o.useTransaction with
  | false =>
    rw [body_of_plain _ _ _ _ htransaction, body_of_plain _ _ _ _ htransaction]
    exact hwork
  | true =>
    rw [body_of_transaction _ _ _ _ htransaction, body_of_transaction _ _ _ _ htransaction]
    exact (hmirrors.adapter.begin c).bind fun _ => hwork.bind fun x =>
      (hmirrors.adapter.commit c).bind fun _ => .pure x

/-- Both handlers dispose of the connection. -/
theorem dispose (hmirrors : h.Mirrors R k) (failure : Option Error) :
    Alike R (h.dispose c failure) (k.dispose c failure) := by
  cases failure with
  | none => exact hmirrors.adapter.release c
  | some e =>
    unfold Handler.dispose
    cases hlost : e.isLost with
    | true => simpa [hlost] using hmirrors.adapter.destroy c
    | false => simpa [hlost] using hmirrors.adapter.release c

/-- Both handlers report an error. -/
theorem reportError (hmirrors : h.Mirrors R k) (e : Error) :
    Alike R (Handler.reportError h.adapter e) (Handler.reportError k.adapter e) := by
  cases e <;> exact hmirrors.adapter.report _ _

/-- Both handlers roll back and say nothing of a failure. -/
theorem rollbackQuietly (hmirrors : h.Mirrors R k) (e : Error) :
    Alike R (h.rollbackQuietly c e) (k.rollbackQuietly c e) := by
  unfold Handler.rollbackQuietly
  cases hlost : e.isLost with
  | true => simpa [hlost] using Alike.pure ()
  | false =>
    refine (hmirrors.adapter.rollback c).attempt.bind fun outcome => ?_
    cases outcome with
    | ok u => exact .pure ()
    | error reason =>
      cases hordinary : reason.isOrdinary with
      | true => simpa [hordinary] using hmirrors.adapter.report _ _
      | false => simpa [hordinary] using Alike.raise reason

/-- Both handlers clean up. -/
theorem cleanUp (hmirrors : h.Mirrors R k) (e : Error) :
    Alike R (h.cleanUp o c e) (k.cleanUp o c e) := by
  rw [cleanUp_eq, cleanUp_eq]
  have hroll : Alike R
      (if o.useTransaction && o.rollbackIfError then h.rollbackQuietly c e else Pure.pure ())
      (if o.useTransaction && o.rollbackIfError then k.rollbackQuietly c e else Pure.pure ()) := by
    split
    · exact hmirrors.rollbackQuietly e
    · exact .pure ()
  have hreport : Alike R (if o.printSqlError then Handler.reportError h.adapter e else Pure.pure ())
      (if o.printSqlError then Handler.reportError k.adapter e else Pure.pure ()) := by
    split
    · exact hmirrors.reportError e
    · exact .pure ()
  exact hroll.bind fun _ => hreport

/-- Both handlers give the connection up. -/
theorem giveUp (hmirrors : h.Mirrors R k) (e : Error) (cleaned : Except Error Unit) :
    Alike (β := Except Error α) R (h.giveUp c e cleaned) (k.giveUp c e cleaned) := by
  refine (hmirrors.dispose (some e)).bind fun _ => ?_
  cases cleaned with
  | ok u => exact .pure _
  | error interruption => exact .raise interruption

/-- Both handlers finish. -/
theorem finish (hmirrors : h.Mirrors R k) (b : Except Error α) :
    Alike R (h.finish o c b) (k.finish o c b) := by
  cases b with
  | ok x => exact (hmirrors.dispose none).bind fun _ => .pure _
  | error e =>
    unfold Handler.finish
    cases hordinary : e.isOrdinary with
    | true => simpa [hordinary] using (hmirrors.cleanUp e).attempt.bind (hmirrors.giveUp e)
    | false => simpa [hordinary] using (hmirrors.dispose none).bind fun _ => Alike.raise e

/-- Both handlers go through the stages on a connection. -/
theorem within (hmirrors : h.Mirrors R k) (hwork : Alike R (f c) (g c)) :
    Alike R (h.within o c f) (k.within o c g) := by
  rw [within_eq, within_eq]
  exact (hmirrors.body hwork).attempt.bind hmirrors.finish

/-! ## Whole runs -/

/-- Both handlers serve the work. -/
theorem serve (hmirrors : h.Mirrors R k) (hwork : ∀ c, Alike R (f c) (g c)) :
    Alike R (h.serve o f) (k.serve o g) := by
  refine hmirrors.acquire.attempt.bind fun acquired => ?_
  cases acquired with
  | error e => exact .pure _
  | ok c => exact (hmirrors.within (hwork c)).attempt.bind fun x => .pure _

/-- Runs of both handlers are alike. -/
theorem run (hmirrors : h.Mirrors R k) (hwork : ∀ c, Alike R (f c) (g c)) :
    Alike R (h.run o f) (k.run o g) := by
  rw [run_eq, run_eq]
  exact (hmirrors.serve hwork).bind fun x => .ofExcept _

/-- Transactions of both handlers are alike. -/
theorem transaction (hmirrors : h.Mirrors R k) (hwork : ∀ c, Alike R (f c) (g c)) :
    Alike R (h.transaction f) (k.transaction g) := by
  rw [transaction_eq, transaction_eq]
  exact (hmirrors.serve hwork).bind fun x => .ofExcept _

end Handler.Mirrors

end Quarry
