import LoadPacing.Proofs.Session.Construction
import LoadPacing.Proofs.Session.Frame

-- Whatever a session has to do with, its tunings come from settings that have passed the checks.
namespace LoadPacing

def Tuning.Checked (tuning : Tuning) : Prop := ∃ settings : Settings, settings.Sound ∧ tuning = .of settings

theorem Tuning.Checked.aimed {tuning : Tuning} (checked : tuning.Checked) : tuning.target.Positive := by
  obtain ⟨settings,sound,rfl⟩ := checked
  exact sound.target

def Handle.Checked : Handle α → Prop
  | .calling call => call.tuning.Checked
  | .relaying relay => relay.tuning.Checked
  | .waiting _ | .bare _ | .finished => True

theorem Relay.next_tuning (relay : Relay α) : relay.next.2.1.tuning = relay.tuning := by
  unfold Relay.next
  dsimp only
  split <;> rfl

structure Session.Checked (s : Session α) : Prop where
  own : s.tuning.Checked
  services : ∀ service ∈ s.services, service.tuning.Checked
  handles : ∀ id handle, s.lookup id = some handle → handle.Checked

namespace Session
variable {s : Session α} {id number : Nat} {handle : Handle α} {service : Service}

theorem Checked.put (checked : s.Checked) (entered : handle.Checked) : (s.put id handle).Checked := by
  refine ⟨checked.own,checked.services,?_⟩
  intro other found here
  by_cases same : other = id
  · subst same
    rw [lookup_put] at here
    exact Option.some.inj here ▸ entered
  · rw [lookup_put_other s handle same] at here
    exact checked.handles other found here

theorem Checked.forget (checked : s.Checked) : (s.forget id).Checked := by
  refine ⟨checked.own,checked.services,?_⟩
  intro other found here
  by_cases same : other = id
  · subst same
    have absent : (s.forget other).lookup other = none := Registry.find_without
    rw [absent] at here
    cases here
  · have kept : (s.forget id).lookup other = s.lookup other := Registry.find_without_other same
    rw [kept] at here
    exact checked.handles other found here

theorem Checked.moved (checked : s.Checked) (now : Nanos) (regulator : Regulator) (instances issued : Nat) :
    Checked { s with now, regulator, instances, issued } := ⟨checked.own,checked.services,checked.handles⟩

theorem Checked.manned {services : List Service} (checked : s.Checked)
    (tuned : ∀ service ∈ services, service.tuning.Checked) : Checked { s with services } :=
  ⟨checked.own,tuned,checked.handles⟩

theorem Checked.calling {call : Call α} (checked : s.Checked) (found : s.lookup id = some (.calling call)) : call.tuning.Checked :=
  checked.handles id _ found

theorem Checked.found (checked : s.Checked) (found : s.services[number]? = some service) : service.tuning.Checked :=
  checked.services service (List.mem_of_getElem? found)

theorem Checked.tuningOf {tuning : Tuning} (checked : s.Checked) {source : Option Nat}
    (tuned : s.tuningOf source = some tuning) : tuning.Checked := by
  cases source with
  | none => exact Option.some.inj tuned ▸ checked.own
  | some number =>
    obtain ⟨service,found,rfl⟩ := Option.map_eq_some_iff.mp tuned
    exact checked.found found

theorem Checked.replaced (checked : s.Checked) (tuned : service.tuning.Checked) :
    ∀ other ∈ s.services.set number service, other.tuning.Checked := by
  intro other member
  rcases List.mem_or_eq_of_mem_set member with among | rfl
  · exact checked.services other among
  · exact tuned

theorem Checked.addService (checked : s.Checked) (tuned : service.tuning.Checked) :
    (s.addService service).2.1.Checked :=
  checked.manned (List.forall_mem_append.mpr ⟨checked.services,List.forall_mem_singleton.mpr tuned⟩)

theorem Checked.createBackend (checked : s.Checked) : s.createBackend.2.Checked := checked.moved _ _ _ _

theorem Checked.release (checked : s.Checked) (id : Nat) : (s.release id).2.1.Checked := by
  unfold Session.release
  cases s.lookup id with
  | none => exact checked
  | some handle => exact checked.forget.moved _ _ _ _

theorem Checked.pollGate (checked : s.Checked) (id : Nat) (wait : Wait) {waiting : Wait → Handle α}
    {through : Handle α} (issues : List (Issue α)) (waits : ∀ wait, (waiting wait).Checked) (goes : through.Checked) :
    (s.pollGate id wait waiting through issues).2.1.Checked := by
  have polled := checked.moved s.now { s.regulator with bucket := (wait.poll s.now s.regulator.bucket).bucket }
    s.instances
  unfold Session.pollGate
  dsimp only
  split
  · exact (polled s.issued).put (waits _)
  · exact (polled _).put goes
  · exact (polled s.issued).put trivial
  · exact (polled s.issued).put trivial

theorem Checked.proceed {call : Call α} (checked : s.Checked) (id : Nat) (tuned : call.tuning.Checked) (pauses : Nat) :
    (s.proceed id call pauses).2.1.Checked := by
  cases pauses with
  | succ pauses => exact checked.put tuned
  | zero =>
    unfold Session.proceed
    cases call.plan.outcome with
    | ok script => exact checked.put tuned
    | error failure =>
      dsimp only
      split
      · exact (checked.moved _ _ _ _).put trivial
      · exact checked.put trivial

theorem Checked.pollCall {call : Call α} (checked : s.Checked) (id : Nat) (tuned : call.tuning.Checked) :
    (s.pollCall id call).2.1.Checked := by
  unfold Session.pollCall
  split
  · exact checked.proceed id tuned _
  · rename_i wait _
    have gated : (s.pollCallGate id call wait).2.1.Checked :=
      checked.pollGate id wait [call.issue] (fun _ => tuned) tuned
    dsimp only
    split
    · exact gated.proceed id tuned _
    · exact gated

theorem Checked.pollHandle (checked : s.Checked) (id : Nat) : (s.pollHandle id).2.1.Checked := by
  unfold Session.pollHandle
  split
  · exact checked
  · exact checked.pollGate id _ [] (fun _ => trivial) trivial
  · rename_i found
    exact checked.pollCall id (checked.calling found)
  · exact checked

theorem Checked.launch (checked : s.Checked) (id : Nat) (entered : handle.Checked) (unpolled : Bool) :
    (s.launch id handle unpolled).2.1.Checked := by
  have started : ((s.release id).2.1.put id handle).Checked := (checked.release id).put entered
  unfold Session.launch
  cases unpolled with
  | true => exact started
  | false => exact started.pollHandle id

theorem Checked.drain (most taken : Nat) (checked : s.Checked) : (drain most taken s).2.1.Checked :=
  (drain_tries most taken s).holds checked fun | .mk _, checked => checked.moved _ _ _ _

theorem Checked.acquireAwait (checked : s.Checked) : s.acquireAwait.2.1.Checked := by
  unfold Session.acquireAwait
  dsimp only
  split
  · split
    · exact checked.moved _ _ _ _
    · exact checked.moved _ _ _ _
  · exact checked.moved _ _ _ _

theorem Checked.giveCancel (checked : s.Checked) (id : Nat) : (s.giveCancel id).2.Checked := by
  unfold Session.giveCancel
  split
  · split
    · exact checked.put trivial
    · exact checked
  · exact checked

theorem Checked.readItem (checked : s.Checked) (id : Nat) : (s.readItem id).2.1.Checked := by
  unfold Session.readItem
  split
  · exact checked.put trivial
  · rename_i relay found
    have tuned : relay.tuning.Checked := checked.handles id _ found
    have went : (s.put id (.relaying relay.next.2.1)).Checked := by
      refine checked.put ?_
      rw [Handle.Checked,relay.next_tuning]
      exact tuned
    dsimp only
    split
    · exact went
    · exact went
    · exact went.moved _ _ _ _
  · exact checked

theorem Checked.readItems (fuel id : Nat) (checked : s.Checked) : (readItems fuel id s).2.1.Checked :=
  (readItems_reads fuel id s).holds checked fun | .mk _, checked => checked.readItem id

theorem Checked.call (checked : s.Checked) (id number : Nat) (plan : Plan α) (unpolled : Bool) :
    (s.call id number plan unpolled).2.1.Checked := by
  unfold Session.call
  cases found : s.services[number]? with
  | none => exact checked
  | some service =>
    have tuned := checked.found found
    have furnished : ∀ backend, Checked
        { s.createBackend.2 with services := s.services.set number { service with backend } } :=
      fun _ => checked.createBackend.manned (checked.replaced tuned)
    dsimp only
    split
    · exact furnished _
    · rename_i terms _
      have made : (Handle.calling (service.call terms plan)).Checked := tuned
      exact (furnished _).launch id made unpolled

theorem Checked.pollReady (checked : s.Checked) (number : Nat) (inner : Readiness) :
    (s.pollReady number inner).2.1.Checked := by
  unfold Session.pollReady
  cases found : s.services[number]? with
  | none => exact checked
  | some service =>
    have tuned := checked.found found
    have kept : (service.pollReady inner).tuning.Checked := by
      cases inner <;> exact tuned
    exact checked.manned (checked.replaced kept)

theorem Checked.joined {settings : Settings} {ran : Result α (Answer α)} (checked : s.Checked)
    (joined : s.Joined settings ran) : ∀ service ∈ ran.2.1.services, service.tuning.Checked := by
  rw [joined.services]
  refine List.forall_mem_append.mpr ⟨checked.services,?_⟩
  cases valid : settings.validate with
  | error fault => exact List.forall_mem_nil _
  | ok => exact List.forall_mem_singleton.mpr ⟨settings,Settings.validate_ok valid,rfl⟩

theorem Checked.step (checked : s.Checked) (action : Action α) : (s.step action).2.1.Checked := by
  cases action with
  | acquire id unpolled | acquireBefore id within unpolled | acquireCancellable id given unpolled =>
    have waits (wait : Wait) : (Handle.waiting wait : Handle α).Checked := trivial
    exact checked.launch id (waits _) unpolled
  | cancel id => exact checked.giveCancel id
  | poll id => exact checked.pollHandle id
  | drop id => exact checked.release id
  | acquireAwait => exact checked.acquireAwait
  | call id number plan unpolled => exact checked.call id number plan unpolled
  | pollReady number inner => exact checked.pollReady number inner
  | layer => exact checked.createBackend.addService checked.own
  | tryAcquire =>
    rw [step_tryAcquire_rest]
    exact checked.moved _ _ _ _
  | drain most =>
    rw [step_drain_rest]
    exact checked.drain most 0
  | next id =>
    rw [step_next_rest]
    exact checked.readItem id
  | collect id =>
    rw [step_collect_rest]
    exact checked.readItems _ id
  | shareService settings =>
    have tuned := checked.joined (shareService_joined settings s)
    unfold Session.step at tuned ⊢
    dsimp only at tuned ⊢
    split at tuned
    · exact checked.createBackend
    · exact checked.createBackend.manned tuned
  | shareLayer settings =>
    have tuned := checked.joined (shareLayer_joined settings s)
    unfold Session.step at tuned ⊢
    dsimp only at tuned ⊢
    split at tuned
    · exact checked
    · exact checked.createBackend.manned tuned
  | clone number =>
    unfold Session.step
    dsimp only
    split
    · exact checked
    · rename_i service found
      have tuned := checked.found found
      exact checked.createBackend.addService tuned
  | advance | setRate => exact checked.moved _ _ _ _
  | contains | stats => exact checked
  | observe | observeDeadline =>
    unfold Session.step
    dsimp only
    split
    · exact checked
    · exact checked.moved _ _ _ _
  | instanceOf | callState =>
    unfold Session.step
    dsimp only
    split <;> exact checked
  | unwrap id =>
    unfold Session.step
    dsimp only
    split
    · exact checked.put trivial
    · exact checked

theorem Checked.run (checked : s.Checked) (actions : List (Action α)) : (s.run actions).2.Checked :=
  run_always checked (fun action checked => checked.step action) actions

theorem checked_unheld (own : s.tuning.Checked) (services : ∀ service ∈ s.services, service.tuning.Checked)
    (unheld : ∀ id, s.lookup id = none) : s.Checked := by
  refine ⟨own,services,fun id handle found => ?_⟩
  rw [unheld id] at found
  cases found

theorem opening_checked {settings : Settings} (sound : settings.Sound) (regulator : Regulator) :
    (opening settings regulator : Session α).Checked := by
  have tuned : (Tuning.of settings).Checked := ⟨settings,sound,rfl⟩
  exact checked_unheld tuned (List.forall_mem_singleton.mpr tuned) fun _ => rfl

theorem opened_checked {settings shared : Settings}
    (opened : gate rate burst = .ok s ∨ ofLayer settings = .ok s ∨ ofLayerOver shared settings = .ok s ∨
      ofService settings = .ok s ∨ ofServiceOver shared settings = .ok s) : s.Checked := by
  have alone : (settings.validate.map fun _ => (opening settings (settings.regulator 0) : Session α)) = .ok s →
      s.Checked := by
    intro made
    cases valid : settings.validate with
    | error fault => simp [valid,Except.map] at made
    | ok =>
      rw [valid] at made
      cases made
      exact opening_checked (Settings.validate_ok valid) _
  have both : (shared.validate.bind fun _ => settings.validate.map fun _ =>
      (opening settings (shared.regulator 0) : Session α)) = .ok s → s.Checked := by
    intro made
    cases valid : shared.validate with
    | error fault => simp [valid,Except.bind] at made
    | ok =>
      rw [valid] at made
      cases own : settings.validate with
      | error fault => simp [own,Except.map,Except.bind] at made
      | ok =>
        rw [own] at made
        cases made
        exact opening_checked (Settings.validate_ok own) _
  rcases opened with gated | layer | layerOver | service | serviceOver
  · unfold gate at gated
    split at gated
    · cases gated
    · cases gated
      exact checked_unheld ⟨.default,Settings.default_sound,rfl⟩ (List.forall_mem_nil _) fun _ => rfl
  · exact alone (ofLayer_checked settings ▸ layer)
  · exact both (ofLayerOver_checked settings shared ▸ layerOver)
  · exact alone (ofService_checked settings ▸ service)
  · exact both (ofServiceOver_checked settings shared ▸ serviceOver)

end Session
end LoadPacing
