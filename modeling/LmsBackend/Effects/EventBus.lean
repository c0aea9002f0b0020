import LmsBackend.Core.Events
import LmsBackend.Effects.Runs
import LmsBackend.Lib.Gather

/-!
# Delivery of events

`app.core.events.bus`, for any classes of events and any asynchronous handlers, whose
operations may change what they share and interleave in any order.

- `EventBus`: the registrations by class; `subscribe`, `clear`, `resolve`.
- `EventBus.publishing`: the tasks that `publish` waits for; `EventBus.outcome` how it ends.
- `Delivers`: every registration for the event is started once and nothing else is, and a
  handler that raises disturbs neither `publish` nor the others.
- `publish_delivers`: for every history of subscriptions.
- `publish_eq`: `LmsBackend.publish` is what the bus does with the one registration of the
  application.
-/

namespace LmsBackend

open Interleave

variable {Cls Data E H Op : Type} {Ans : Op → Type} {ε W : Type}

/-! ## Registrations -/

/-- The classes of events, with `__mro__` and `__name__` of each. -/
structure EventClasses (Cls : Type) where
  mro : Cls → List Cls
  name : Cls → String
  self_mem : ∀ c, c ∈ mro c
  inherits : ∀ c, ∀ b ∈ mro c, mro b ⊆ mro c

/-- An instance of a class of events. -/
structure EventObject (Cls Data : Type) where
  cls : Cls
  data : Data

/-- `isinstance`. -/
def EventClasses.isinstance [DecidableEq Cls] (classes : EventClasses Cls)
    (event : EventObject Cls Data) (etype : Cls) : Bool :=
  decide (etype ∈ classes.mro event.cls)

/-- `self._handlers[event_type].append(handler)`. -/
def appendHandler [DecidableEq Cls] (etype : Cls) (handler : H) :
    List (Cls × List H) → List (Cls × List H)
  | [] => [(etype, [handler])]
  | (t, hs) :: rest =>
    if t = etype then (t, hs ++ [handler]) :: rest else (t, hs) :: appendHandler etype handler rest

theorem appendHandler_keys [DecidableEq Cls] (etype : Cls) (handler : H)
    (entries : List (Cls × List H)) :
    (appendHandler etype handler entries).map Prod.fst =
      if etype ∈ entries.map Prod.fst then entries.map Prod.fst
      else entries.map Prod.fst ++ [etype] := by
  induction entries with
  | nil => rfl
  | cons entry rest ih =>
    obtain ⟨t, hs⟩ := entry
    unfold appendHandler
    by_cases ht : t = etype
    · subst ht
      simp
    · simp only [if_neg ht, List.map_cons, ih]
      by_cases hrest : etype ∈ rest.map Prod.fst
      · rw [if_pos hrest, if_pos (List.mem_cons_of_mem _ hrest)]
      · have hnew : etype ∉ t :: rest.map Prod.fst := by
          rw [List.mem_cons, not_or]
          exact ⟨Ne.symm ht, hrest⟩
        rw [if_neg hrest, if_neg hnew]
        rfl

/-- `EventBus`: the handlers of each class, in the order in which the classes came. -/
structure EventBus (Cls H : Type) where
  handlers : List (Cls × List H)
  keys : (handlers.map Prod.fst).Nodup

namespace EventBus

variable [DecidableEq Cls]

/-- `EventBus()`. -/
def new : EventBus Cls H := ⟨[], List.nodup_nil⟩

/-- `EventBus.subscribe`. -/
def subscribe (bus : EventBus Cls H) (etype : Cls) (handler : H) : EventBus Cls H where
  handlers := appendHandler etype handler bus.handlers
  keys := by
    rw [appendHandler_keys]
    by_cases h : etype ∈ bus.handlers.map Prod.fst
    · rw [if_pos h]
      exact bus.keys
    · rw [if_neg h]
      exact bus.keys.append (List.nodup_singleton _) (by simpa using h)

/-- `EventBus.clear`. -/
def clear (_ : EventBus Cls H) : EventBus Cls H := new

/-- `EventBus._resolve`. -/
def resolve (classes : EventClasses Cls) (bus : EventBus Cls H) (event : EventObject Cls Data) :
    List H :=
  bus.handlers.flatMap fun entry => if classes.isinstance event entry.1 then entry.2 else []

end EventBus

/-- A call that changes the registrations. -/
inductive BusCall (Cls H : Type)
  | subscribe (etype : Cls) (handler : H)
  | clear

/-- The bus after one more call. -/
def EventBus.call [DecidableEq Cls] (bus : EventBus Cls H) : BusCall Cls H → EventBus Cls H
  | .subscribe etype handler => bus.subscribe etype handler
  | .clear => bus.clear

/-- The bus after these calls. -/
def EventBus.after [DecidableEq Cls] (calls : List (BusCall Cls H)) : EventBus Cls H :=
  calls.foldl EventBus.call .new

/-- The registrations after one more call. -/
def registered (registrations : List (Cls × H)) : BusCall Cls H → List (Cls × H)
  | .subscribe etype handler => registrations ++ [(etype, handler)]
  | .clear => []

/-- The registrations since the last `clear`, in order. -/
def registrations (calls : List (BusCall Cls H)) : List (Cls × H) := calls.foldl registered []

/-- The handlers registered for a class that the event is an instance of, once for each
registration. -/
def matchingHandlers [DecidableEq Cls] (classes : EventClasses Cls)
    (event : EventObject Cls Data) (registrations : List (Cls × H)) : List H :=
  (registrations.filter fun r => classes.isinstance event r.1).map Prod.snd

theorem flatMap_appendHandler [DecidableEq Cls] (p : Cls → Bool) (etype : Cls) (handler : H)
    (entries : List (Cls × List H)) :
    ((appendHandler etype handler entries).flatMap fun r => if p r.1 then r.2 else []).Perm
      ((entries.flatMap fun r => if p r.1 then r.2 else []) ++
        if p etype then [handler] else []) := by
  induction entries with
  | nil => simp [appendHandler]
  | cons entry rest ih =>
    obtain ⟨t, hs⟩ := entry
    unfold appendHandler
    by_cases ht : t = etype
    · subst ht
      rw [if_pos rfl, List.flatMap_cons, List.flatMap_cons]
      by_cases hp : p t = true
      · simp only [hp, if_true, List.append_assoc]
        -- the new handler stands before those of the other classes
        exact List.perm_append_comm.append_left hs
      · simp [hp]
    · rw [if_neg ht, List.flatMap_cons, List.flatMap_cons, List.append_assoc]
      exact ih.append_left _

/-- `_resolve` finds every matching registration once. -/
theorem resolve_after [DecidableEq Cls] (classes : EventClasses Cls)
    (calls : List (BusCall Cls H)) (event : EventObject Cls Data) :
    ((EventBus.after calls).resolve classes event).Perm
      (matchingHandlers classes event (registrations calls)) := by
  -- the bus and the registrations side by side, call by call
  suffices hside : ∀ (bus : EventBus Cls H) (rs : List (Cls × H)),
      (bus.resolve classes event).Perm (matchingHandlers classes event rs) →
      ((calls.foldl EventBus.call bus).resolve classes event).Perm
        (matchingHandlers classes event (calls.foldl registered rs)) from
    hside .new [] (List.Perm.refl _)
  induction calls with
  | nil => exact fun _ _ h => h
  | cons call calls ih =>
    intro bus rs h
    refine ih _ _ ?_
    cases call with
    | clear => exact List.Perm.refl _
    | subscribe etype handler =>
      refine (flatMap_appendHandler (classes.isinstance event) etype handler _).trans ?_
      refine (h.append_right _).trans (List.Perm.of_eq ?_)
      unfold matchingHandlers registered
      by_cases hinstance : classes.isinstance event etype = true
      · simp [hinstance]
      · simp [hinstance]

/-! ## Publishing -/

/-- An `async def` that is registered for events. -/
structure AsyncHandler (E Op : Type) (Ans : Op → Type) (ε : Type) where
  qualname : String
  run : E → Prog Op Ans ε Unit

/-- What a task of the event loop does: it starts with its handler, then goes through the
operations of the coroutine. -/
def TaskAns (H : Type) (Ans : Op → Type) : H ⊕ Op → Type
  | .inl _ => Unit
  | .inr o => Ans o

/-- The coroutine, as what a task does. -/
def inTask {α : Type} : Prog Op Ans ε α → Prog (H ⊕ Op) (TaskAns H Ans) ε α
  | .ret a => .ret a
  | .raise e => .raise e
  | .call o k => .call (.inr o) fun a => inTask (k a)

/-- What the handlers share, and those that were started so far. -/
structure EventLoop (W H : Type) where
  world : W
  started : List H

/-- The event loop. Of each task the operations are recorded, with their answers. -/
def eventLoop (H : Type) (exec : (o : Op) → W → Ans o × W) :
    Machine (H ⊕ Op) (TaskAns H Ans) (EventLoop W H) Unit (List (Σ o, Ans o)) where
  exec
    | .inl handler, (s, _) => ((), { s with started := s.started ++ [handler] }, ())
    | .inr o, (s, _) => ((exec o s.world).1, { s with world := (exec o s.world).2 }, ())
  waits _ _ _ := False
  closed := ()
  note
    | seen, _, .inl _, _ => seen
    | seen, _, .inr o, a => seen ++ [⟨o, a⟩]

/-- The tasks of some handlers, waiting for one event. -/
abbrev Gathering (E Op : Type) (Ans : Op → Type) (ε W : Type) (n : Nat) :=
  Pool (AsyncHandler E Op Ans ε ⊕ Op) (TaskAns (AsyncHandler E Op Ans ε) Ans) ε Unit
    (EventLoop W (AsyncHandler E Op Ans ε)) Unit (List (Σ o, Ans o)) (Fin n)

/-- `asyncio.gather(*(h(event) for h in handlers), return_exceptions=True)`. -/
def gather (handlers : List (AsyncHandler E Op Ans ε)) (event : E) (w : W) :
    Gathering E Op Ans ε W handlers.length where
  world := ⟨w, []⟩
  thread i :=
    { prog := some (.call (.inl (handlers.get i)) fun _ => inTask ((handlers.get i).run event))
      loc := ()
      seen := [] }

/-- What `logger.exception` is called with. -/
structure LogRecord (ε : Type) where
  message : String
  excInfo : ε

/-- The `ValueError` of `zip(…, strict=True)`. -/
inductive ZipError | lengths

/-- The loop of `publish` over the handlers and their results. -/
def logFailures (name : String) :
    List (AsyncHandler E Op Ans ε) → List (Except ε Unit) → Except ZipError (List (LogRecord ε))
  | [], [] => .ok []
  | handler :: handlers, result :: results => do
    let rest ← logFailures name handlers results
    match result with
    | .error e =>
      return ⟨"event handler failed: " ++ handler.qualname ++ " for " ++ name, e⟩ :: rest
    | .ok _ => return rest
  | _, _ => .error .lengths

namespace EventBus

variable [DecidableEq Cls] (classes : EventClasses Cls)
  (bus : EventBus Cls (AsyncHandler (EventObject Cls Data) Op Ans ε))
  (event : EventObject Cls Data)

/-- `EventBus.publish`, up to where it waits. -/
def publishing (w : W) :
    Gathering (EventObject Cls Data) Op Ans ε W (bus.resolve classes event).length :=
  gather (bus.resolve classes event) event w

/-- `EventBus.publish`, from there: how it ends, once it does. -/
def outcome (P : Gathering (EventObject Cls Data) Op Ans ε W (bus.resolve classes event).length) :
    Option (Except ZipError (List (LogRecord ε))) :=
  if (bus.resolve classes event).isEmpty then some (.ok [])
  else P.results.map (logFailures (classes.name event.cls) (bus.resolve classes event))

end EventBus

/-! ## What is started -/

/-- The tasks that have begun, and what has been started for them. -/
structure Begun {handlers : List (AsyncHandler E Op Ans ε)} (event : E)
    (P : Gathering E Op Ans ε W handlers.length) (begun : Finset (Fin handlers.length)) : Prop where
  started : (P.world.started : Multiset (AsyncHandler E Op Ans ε)) =
    begun.val.map handlers.get
  waiting : ∀ i, i ∉ begun → (P.thread i).prog =
    some (.call (.inl (handlers.get i)) fun _ => inTask ((handlers.get i).run event))
  running : ∀ i, i ∈ begun → ∃ p, (P.thread i).prog = some (inTask p)

section Tasks

variable {exec : (o : Op) → W → Ans o × W} {handlers : List (AsyncHandler E Op Ans ε)} {event : E}
  {w : W} {P : Gathering E Op Ans ε W handlers.length}

theorem begun_act {begun : Finset (Fin handlers.length)} (h : Begun event P begun)
    {i : Fin handlers.length} {o : AsyncHandler E Op Ans ε ⊕ Op} {k}
    (hprog : (P.thread i).prog = some (.call o k)) :
    ∃ begun', Begun event (P.act (eventLoop _ exec) i o k) begun' := by
  by_cases hi : i ∈ begun
  · -- an operation of a task that has begun
    obtain ⟨p, hp⟩ := h.running i hi
    cases p with
    | ret a => cases hprog.symm.trans hp
    | raise e => cases hprog.symm.trans hp
    | call o' k' =>
      cases hprog.symm.trans hp
      refine ⟨begun, h.started, fun j hj => ?_, fun j hj => ?_⟩
      · rw [Pool.act_other (ne_of_mem_of_not_mem hi hj).symm]
        exact h.waiting j hj
      · by_cases hij : j = i
        · subst hij
          rw [Pool.act_self]
          exact ⟨_, rfl⟩
        · rw [Pool.act_other hij]
          exact h.running j hj
  · -- the task begins
    cases hprog.symm.trans (h.waiting i hi)
    refine ⟨insert i begun, ?_, fun j hj => ?_, fun j hj => ?_⟩
    · show ((P.world.started ++ [handlers.get i] : List (AsyncHandler E Op Ans ε)) :
        Multiset (AsyncHandler E Op Ans ε)) = _
      rw [Finset.insert_val_of_notMem hi, Multiset.map_cons, ← h.started, ← Multiset.singleton_add,
        add_comm]
      rfl
    · obtain ⟨hij, hj⟩ := not_or.mp (mt Finset.mem_insert.mpr hj)
      rw [Pool.act_other hij]
      exact h.waiting j hj
    · by_cases hij : j = i
      · subst hij
        rw [Pool.act_self]
        exact ⟨_, rfl⟩
      · rw [Pool.act_other hij]
        exact h.running j (Finset.mem_of_mem_insert_of_ne hj hij)

/-- A task begins once. -/
theorem exists_begun (hr : Reach (eventLoop _ exec) Uncut (gather handlers event w) P) :
    ∃ begun, Begun event P begun := by
  induction hr with
  | start =>
    refine ⟨∅, rfl, fun i _ => rfl, fun i hi => ?_⟩
    cases hi
  | step reach ok step ih =>
    obtain ⟨begun, h⟩ := ih
    cases step with
    | cut running => exact absurd rfl ok
    | act prog free => exact begun_act h prog

theorem univ_map_get : (Finset.univ.val.map handlers.get : Multiset _) = handlers := by
  show Multiset.map handlers.get (List.finRange handlers.length : Multiset _) = _
  rw [Multiset.map_coe, List.map_get_finRange]

/-- Nothing but the handlers is started, and none of them twice. -/
theorem started_subperm (hr : Reach (eventLoop _ exec) Uncut (gather handlers event w) P) :
    P.world.started.Subperm handlers := by
  obtain ⟨begun, h⟩ := exists_begun hr
  rw [← Multiset.coe_le, h.started, ← univ_map_get]
  exact Multiset.map_le_map (Finset.val_le_iff.mpr (Finset.subset_univ begun))

/-- In the end all handlers have been started. -/
theorem started_perm (hr : Reach (eventLoop _ exec) Uncut (gather handlers event w) P)
    (hended : P.Ended) : P.world.started.Perm handlers := by
  obtain ⟨begun, h⟩ := exists_begun hr
  have hall : begun = Finset.univ := by
    refine Finset.eq_univ_of_forall fun i => ?_
    by_contra hi
    obtain ⟨p, hp, hcall⟩ := hended i
    cases hp.symm.trans (h.waiting i hi)
    exact hcall _ _ rfl
  rw [← Multiset.coe_eq_coe, h.started, hall, univ_map_get]

theorem gather_ended (hr : Reach (eventLoop _ exec) Uncut (gather handlers event w) P)
    (hlast : ¬ ∃ P', Advance (eventLoop _ exec) P P') : P.Ended :=
  hr.ended (fun _ => Option.some_ne_none _) (fun _ _ _ => not_false) hlast

end Tasks

/-- With a result for each handler the loop of `publish` runs through. -/
theorem logFailures_ok (name : String) {handlers : List (AsyncHandler E Op Ans ε)}
    {results : List (Except ε Unit)} (h : results.length = handlers.length) :
    ∃ log, logFailures name handlers results = .ok log := by
  induction handlers generalizing results with
  | nil =>
    rw [List.eq_nil_of_length_eq_zero h]
    exact ⟨[], rfl⟩
  | cons handler handlers ih =>
    cases results with
    | nil => cases h
    | cons result results =>
      obtain ⟨log, hlog⟩ := ih (Nat.succ.inj h)
      unfold logFailures
      rw [hlog]
      cases result with
      | error e => exact ⟨_, rfl⟩
      | ok a => exact ⟨_, rfl⟩

/-! ## Delivery -/

/-- Publishing the event on this bus delivers it to these registrations. -/
structure Delivers [DecidableEq Cls] (classes : EventClasses Cls)
    (bus : EventBus Cls (AsyncHandler (EventObject Cls Data) Op Ans ε))
    (rs : List (Cls × AsyncHandler (EventObject Cls Data) Op Ans ε))
    (exec : (o : Op) → W → Ans o × W) (event : EventObject Cls Data) (w : W) : Prop where
  /-- the handlers come to an end -/
  ends : ∀ run : Nat → Gathering (EventObject Cls Data) Op Ans ε W
    (bus.resolve classes event).length,
    ¬ ∀ k, Advance (eventLoop _ exec) (run k) (run (k + 1))
  /-- no other handler is started, and none more often than it is registered -/
  once : ∀ P, Reach (eventLoop _ exec) Uncut (bus.publishing classes event w) P →
    P.world.started.Subperm (matchingHandlers classes event rs)
  /-- when they have ended, each was started as often as it is registered, and `publish`
  returns, whichever of them raised -/
  returns : ∀ P, Reach (eventLoop _ exec) Uncut (bus.publishing classes event w) P →
    (¬ ∃ P', Advance (eventLoop _ exec) P P') →
    P.world.started.Perm (matchingHandlers classes event rs) ∧
      ∃ log, bus.outcome classes event P = some (.ok log)
  /-- if the handlers that raise went on in any other way instead, all would do the same up
  to there -/
  undisturbed : ∀ go P, Reach (eventLoop _ exec) Uncut (bus.publishing classes event w) P →
    Reach (eventLoop _ exec) Uncut ((bus.publishing classes event w).rescue go) (P.rescue go)
  /-- if they returned instead of raising, nothing else could happen -/
  unaided : ∀ Q, Reach (eventLoop _ exec) Uncut
      ((bus.publishing classes event w).rescue fun _ _ => .ret ()) Q →
    ∃ P, Reach (eventLoop _ exec) Uncut (bus.publishing classes event w) P ∧
      Q = P.rescue fun _ _ => .ret ()

/-- **Event delivery**: after any calls of `subscribe` and `clear`. -/
theorem publish_delivers [DecidableEq Cls] (classes : EventClasses Cls)
    (calls : List (BusCall Cls (AsyncHandler (EventObject Cls Data) Op Ans ε)))
    (exec : (o : Op) → W → Ans o × W) (event : EventObject Cls Data) (w : W) :
    Delivers classes (EventBus.after calls) (registrations calls) exec event w where
  ends := endless
  once P hr :=
    (started_subperm hr).trans (resolve_after classes calls event).subperm
  returns P hr hlast := by
    have hended := gather_ended hr hlast
    refine ⟨(started_perm hr hended).trans (resolve_after classes calls event), ?_⟩
    obtain ⟨results, hresults, hlength⟩ := hended.results
    obtain ⟨log, hlog⟩ := logFailures_ok (classes.name event.cls) hlength
    unfold EventBus.outcome
    by_cases hempty : ((EventBus.after calls).resolve classes event).isEmpty = true
    · rw [if_pos hempty]
      exact ⟨[], rfl⟩
    · rw [if_neg hempty, hresults]
      exact ⟨log, congrArg some hlog⟩
  undisturbed go P hr := hr.rescue go
  unaided Q hr := hr.of_rescue _ fun _ _ => ⟨(), rfl⟩

/-! ## The bus of the application -/

/-- `__name__` of the class of an event. -/
def EventKind.className : EventKind → String
  | .userRegistered _ => "UserRegisteredEvent"
  | .userLoggedIn _ => "UserLoggedInEvent"
  | .userUpdated _ => "UserUpdatedEvent"
  | .courseCreated _ _ => "CourseCreatedEvent"
  | .courseEnrolled _ _ => "CourseEnrolledEvent"
  | .lessonCompleted _ _ => "LessonCompletedEvent"
  | .assignmentSubmitted _ _ => "AssignmentSubmittedEvent"
  | .submissionGraded _ _ _ => "SubmissionGradedEvent"

/-- `DomainEvent` and the classes derived from it. -/
def domainEvents : EventClasses String where
  mro c := if c = "DomainEvent" then [c] else [c, "DomainEvent"]
  name := id
  self_mem c := by
    split
    · exact List.mem_singleton_self c
    · exact List.mem_cons_self
  inherits c b hb := by
    by_cases hc : c = "DomainEvent"
    · rw [if_pos hc] at hb
      rw [List.mem_singleton.mp hb]
      exact List.Subset.refl _
    · rw [if_neg hc] at hb ⊢
      obtain rfl | hb := List.mem_cons.mp hb
      · rw [if_neg hc]
        exact List.Subset.refl _
      · rw [List.mem_singleton.mp hb, if_pos rfl]
        exact List.subset_cons_self _ _

/-- A handler registered for a class and for its base runs twice. -/
example : (EventBus.after [.subscribe "DomainEvent" "first", .clear,
      .subscribe "DomainEvent" "audit", .subscribe "UserUpdatedEvent" "other",
      .subscribe "UserRegisteredEvent" "audit"]).resolve domainEvents
    ⟨"UserRegisteredEvent", ()⟩ = ["audit", "audit"] := by
  decide

/-- An event, as an instance of its class. -/
def DomainEvent.object (e : DomainEvent) : EventObject String DomainEvent :=
  ⟨e.kind.className, e⟩

/-- The consumer of `app.core.audit.handlers`. -/
def auditHandler (env : Env) :
    AsyncHandler (EventObject String DomainEvent) LmsBackend.Op LmsBackend.Op.Ans Err :=
  ⟨"audit_domain_event", fun e => auditDomainEvent env e.data⟩

/-- `event_bus`, after `@subscribe(DomainEvent)`. -/
def applicationBus (env : Env) : EventBus String
    (AsyncHandler (EventObject String DomainEvent) LmsBackend.Op LmsBackend.Op.Ans Err) :=
  EventBus.after [.subscribe "DomainEvent" (auditHandler env)]

theorem run_inTask {α : Type} {exec : (o : Op) → W → Ans o × W} (p : Prog Op Ans ε α) (w : W)
    (started : List H) :
    Prog.run (eventLoop H exec).exec (inTask p) (⟨w, started⟩, ()) =
      ((Prog.run exec p w).1, (⟨(Prog.run exec p w).2, started⟩, ())) := by
  induction p generalizing w with
  | ret a => rfl
  | raise e => rfl
  | call o k ih => exact ih _ _

/-- One handler alone does what its coroutine does. -/
theorem gather_alone {exec : (o : Op) → W → Ans o × W}
    {handlers : List (AsyncHandler E Op Ans ε)} {handler : AsyncHandler E Op Ans ε} {event : E}
    {w : W} {P : Gathering E Op Ans ε W handlers.length} (hone : handlers = [handler])
    (hr : Reach (eventLoop _ exec) Uncut (gather handlers event w) P) (hended : P.Ended) :
    P.world.world = (Prog.run exec (handler.run event) w).2 := by
  subst hone
  have hsingle : Subsingleton (Fin [handler].length) := inferInstanceAs (Subsingleton (Fin 1))
  let i : Fin [handler].length := ⟨0, Nat.one_pos⟩
  obtain ⟨p, hp, hcall⟩ := hended i
  have hrun := hr.alone (i := i) rfl hp
  -- the run of the whole task: its start, then the coroutine
  have htask : Prog.run (eventLoop _ exec).exec (.call (.inl handler) fun _ =>
      inTask (handler.run event)) (⟨w, []⟩, ()) =
        ((Prog.run exec (handler.run event) w).1,
          (⟨(Prog.run exec (handler.run event) w).2, [handler]⟩, ())) :=
    run_inTask (handler.run event) w [handler]
  have hworld := congrArg (fun r => r.2.1.world) (hrun.trans htask)
  cases p with
  | ret a => exact hworld
  | raise e => exact hworld
  | call o k => exact absurd rfl (hcall o k)

theorem applicationBus_resolve (env : Env) (e : DomainEvent) :
    (applicationBus env).resolve domainEvents e.object = [auditHandler env] := by
  have hinstance : domainEvents.isinstance e.object "DomainEvent" = true := by
    refine decide_eq_true ?_
    show "DomainEvent" ∈ if e.kind.className = "DomainEvent" then _ else _
    split
    · rename_i h
      exact h ▸ List.mem_singleton_self _
    · exact List.mem_cons_of_mem _ (List.mem_singleton_self _)
  show (if domainEvents.isinstance e.object "DomainEvent" then [auditHandler env] else []) ++ []
    = _
  rw [if_pos hinstance, List.append_nil]

/-- What the bus does with an event of the application, as `publish` has it. -/
theorem publish_eq (env : Env) (e : DomainEvent) (st : State)
    {P : Gathering (EventObject String DomainEvent) LmsBackend.Op LmsBackend.Op.Ans Err State
      ((applicationBus env).resolve domainEvents e.object).length}
    (hr : Reach (eventLoop _ (exec env)) Uncut
      ((applicationBus env).publishing domainEvents e.object st) P)
    (hended : P.Ended) : runM env (publish env e) st = (.ok (), P.world.world) := by
  rw [gather_alone (applicationBus_resolve env e) hr hended]
  have hattempt : runM env (Prog.attempt (auditDomainEvent env e) :
      M (Except Err Unit)) st = _ := Prog.run_attempt (auditDomainEvent env e) st
  exact runM_bind_ok hattempt

end LmsBackend
