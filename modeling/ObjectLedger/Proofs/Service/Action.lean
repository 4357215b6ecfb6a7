import ObjectLedger.Service.State

/-! # What actions ensure

Running an action from a state gives a result and another state (`Action.exec`). An action
ensures something at a state if what is said about results holds when it gives one, and what is
said about faults holds when it does not (`Action.Ensures`). Actions in sequence ensure what
the second ensures wherever the first leads (`Action.Ensures.bind`).
-/

namespace ObjectLedger.Action

variable {α β : Type} {before : Service}

/-- The result of an action from a state, and the state that it leaves. -/
def exec (action : Action α) (before : Service) : Except Fault α × Service :=
  action.run.run before

/-- What holds of the result and the state after an action, or of its fault and the state. -/
def Ensures (action : Action α) (before : Service) (ok : α → Service → Prop)
    (bad : Fault → Service → Prop) : Prop :=
  match action.exec before with
  | (.ok value, after) => ok value after
  | (.error fault, after) => bad fault after

variable {ok ok' : α → Service → Prop} {bad bad' : Fault → Service → Prop}

/-- A fault of the first action is the fault of the whole. -/
theorem exec_bind (first : Action α) (next : α → Action β) (before : Service) :
    (first >>= next).exec before =
      match first.exec before with
      | (.ok value, middle) => (next value).exec middle
      | (.error fault, middle) => (.error fault, middle) := by
  change (ExceptT.bindCont next (first.run.run before).1).run (first.run.run before).2 = _
  unfold exec
  rcases first.run.run before with ⟨value | value, middle⟩ <;> rfl

/-- What follows an action is run in the states that the action ensures. -/
theorem Ensures.bind {first : Action α} {next : α → Action β} {ok' : β → Service → Prop}
    (leads : first.Ensures before ok bad)
    (follows : ∀ value middle, ok value middle → (next value).Ensures middle ok' bad) :
    (first >>= next).Ensures before ok' bad := by
  unfold Ensures at leads ⊢
  rw [exec_bind]
  rcases found : first.exec before with ⟨fault | value, middle⟩
  · rw [found] at leads
    exact leads
  · rw [found] at leads
    exact follows value middle leads

/-- A postcondition may be weakened, for results and for faults. -/
theorem Ensures.mono {action : Action α} (ensures : action.Ensures before ok bad)
    (results : ∀ value after, ok value after → ok' value after)
    (faults : ∀ fault after, bad fault after → bad' fault after) :
    action.Ensures before ok' bad' := by
  unfold Ensures at ensures ⊢
  rcases found : action.exec before with ⟨fault | value, after⟩
  · rw [found] at ensures
    exact faults fault after ensures
  · rw [found] at ensures
    exact results value after ensures

theorem Ensures.and {action : Action α} (first : action.Ensures before ok bad)
    (second : action.Ensures before ok' bad') :
    action.Ensures before (fun value after => ok value after ∧ ok' value after)
      (fun fault after => bad fault after ∧ bad' fault after) := by
  unfold Ensures at first second ⊢
  rcases found : action.exec before with ⟨fault | value, after⟩
  · rw [found] at first second
    exact ⟨first, second⟩
  · rw [found] at first second
    exact ⟨first, second⟩

/-- A result that an action came to is as ensured. -/
theorem Ensures.of_exec_ok {action : Action α} (ensures : action.Ensures before ok bad)
    {value : α} {after : Service} (ends : action.exec before = (.ok value, after)) :
    ok value after := by
  unfold Ensures at ensures
  rwa [ends] at ensures

/-- A fault that an action came to is as ensured. -/
theorem Ensures.of_exec_error {action : Action α} (ensures : action.Ensures before ok bad)
    {fault : Fault} {after : Service} (ends : action.exec before = (.error fault, after)) :
    bad fault after := by
  unfold Ensures at ensures
  rwa [ends] at ensures

theorem ensures_any (action : Action α) (before : Service) :
    action.Ensures before (fun _ _ => True) (fun _ _ => True) := by
  unfold Ensures
  split <;> trivial

theorem ensures_pure {value : α} (holds : ok value before) :
    (pure value : Action α).Ensures before ok bad := holds

theorem ensures_fail {cause : StoreError} (holds : bad (.error cause) before) :
    (fail cause : Action α).Ensures before ok bad := holds

variable {next : α → Action β} {ok' : β → Service → Prop}

/-- A check on the store either goes on with its result or ends with its error. -/
theorem ensures_ofStore_bind {result : Except StoreError α}
    (results : ∀ value, result = .ok value → (next value).Ensures before ok' bad)
    (faults : ∀ cause, result = .error cause → bad (.error cause) before) :
    (ofStore result >>= next).Ensures before ok' bad := by
  cases result with
  | ok value => exact results value rfl
  | error cause => exact faults cause rfl

/-- What follows an edit of a record is run with its result, in the same state. -/
theorem ensures_ofRecord_bind {result : Except RecordError α}
    (results : ∀ value, result = .ok value → (next value).Ensures before ok' bad)
    (faults : ∀ cause, result = .error cause → bad (.error (.record cause)) before) :
    (ofRecord result >>= next).Ensures before ok' bad := by
  cases result with
  | ok value => exact results value rfl
  | error cause => exact faults cause rfl

/-- What follows a sum is run with its result, unless the sum overflows. -/
theorem ensures_ofWord_bind {result : Except Overflow α}
    (results : ∀ value, result = .ok value → (next value).Ensures before ok' bad)
    (faults : ∀ cause, result = .error cause → bad (.overflow cause) before) :
    (ofWord result >>= next).Ensures before ok' bad := by
  cases result with
  | ok value => exact results value rfl
  | error cause => exact faults cause rfl

/-- Reading the state goes on with the state. -/
theorem ensures_get_bind {next : Service → Action β}
    (follows : (next before).Ensures before ok' bad) :
    ((get : Action Service) >>= next).Ensures before ok' bad := follows

/-- After the state is set, an action goes on from it. -/
theorem ensures_set_bind {after : Service} {next : PUnit → Action β}
    (follows : (next ⟨⟩).Ensures after ok' bad) :
    ((set after : Action PUnit) >>= next).Ensures before ok' bad := follows

/-- A failure leaves out what follows it. -/
theorem ensures_fail_bind {cause : StoreError} (holds : bad (.error cause) before) :
    ((fail cause : Action α) >>= next).Ensures before ok' bad := holds

/-- Errors become results, while an overflow stops all the same. -/
theorem exec_attempt (action : Action α) (before : Service) :
    (Action.attempt action).exec before =
      match action.exec before with
      | (.ok value, after) => (.ok (.ok value), after)
      | (.error (.error cause), after) => (.ok (.error cause), after)
      | (.error (.overflow cause), after) => (.error (.overflow cause), after) := by
  unfold Action.attempt exec
  simp only [tryCatch, tryCatchThe, MonadExceptOf.tryCatch, ExceptT.tryCatch, Functor.map,
    ExceptT.map, ExceptT.run, ExceptT.mk, bind, StateT.bind, StateT.run]
  rcases action before with ⟨(cause | cause) | value, after⟩ <;> rfl

/-- An attempt turns an error into a result; an overflow remains a fault. -/
theorem Ensures.attempt {action : Action α} (ensures : action.Ensures before ok bad)
    (ok' : Except StoreError α → Service → Prop)
    (results : ∀ value after, ok value after → ok' (.ok value) after)
    (errors : ∀ cause after, bad (.error cause) after → ok' (.error cause) after)
    (overflows : ∀ cause after, bad (.overflow cause) after → bad' (.overflow cause) after) :
    (Action.attempt action).Ensures before ok' bad' := by
  unfold Ensures at ensures ⊢
  rw [exec_attempt]
  rcases found : action.exec before with ⟨(cause | cause) | value, after⟩
  · rw [found] at ensures
    exact errors cause after ensures
  · rw [found] at ensures
    exact overflows cause after ensures
  · rw [found] at ensures
    exact results value after ensures

/-- What holds after an attempt: of its result, or of the error that it failed with. -/
def Attempted (ok : α → Service → Prop) (bad : Fault → Service → Prop) :
    Except StoreError α → Service → Prop
  | .ok value, after => ok value after
  | .error cause, after => bad (.error cause) after

/-- An attempt ends as the action ensures, or in an overflow. -/
theorem Ensures.attempted {action : Action α} (ensures : action.Ensures before ok bad)
    (overflows : ∀ cause after, bad (.overflow cause) after → bad' (.overflow cause) after) :
    (Action.attempt action).Ensures before (Attempted ok bad) bad' :=
  ensures.attempt _ (fun _ _ known => known) (fun _ _ known => known) overflows

end ObjectLedger.Action
