import LoadPacing.Session.State

-- What each action does to a session.
namespace LoadPacing.Session

-- What becomes of the handle while it waits and when the permit is there, and what is issued then.
def pollGate (s : Session α) (id : Nat) (wait : Wait) (waiting : Wait → Handle α)
    (through : Handle α) (issues : List (Issue α)) : Result α Wait.Outcome :=
  let polled := wait.poll s.now s.regulator.bucket
  let s := s.withBucket polled.bucket
  match polled.outcome with
  | .pending => (.pending,s.put id (waiting polled.wait),.ofOps polled.ops)
  | .ready =>
    (.ready,{ s with issued := s.issued + issues.length }.put id through,.ofPass polled.ops issues)
  | .failed failure => (.failed failure,s.put id .finished,.ofOps polled.ops)
  | .overflow => (.overflow,s.put id .finished,.ofOps polled.ops)

def pollWait (s : Session α) (id : Nat) (wait : Wait) : Result α Progress :=
  let gated := s.pollGate id wait .waiting .finished []
  (.ofOutcome gated.1,gated.2)

-- A failed call is a signal only if it missed a deadline.
def proceed (s : Session α) (id : Nat) (call : Call α) : Nat → Result α Progress
  | pauses + 1 => (.pending,s.put id (.calling { call with stage := .issued pauses }),.none)
  | 0 =>
    match call.plan.outcome with
    | .ok script =>
      (.stream,s.put id (.relaying (.new script call.tuning)),.ofNotices [.callStarted])
    | .error failure =>
      if failure.isDeadline then
        let round := s.round (s.regulator.observeDeadline call.tuning s.now)
        (.failed failure,round.2.1.put id .finished,round.2.2)
      else (.failed failure,s.put id .finished,.none)

def pollCallGate (s : Session α) (id : Nat) (call : Call α) (wait : Wait) : Result α Wait.Outcome :=
  s.pollGate id wait (fun wait => .calling { call with stage := .atGate wait })
    (.calling { call with stage := .issued call.plan.pauses }) [call.issue]

def pollCall (s : Session α) (id : Nat) (call : Call α) : Result α Progress :=
  match call.stage with
  | .issued pauses => s.proceed id call pauses
  | .atGate wait =>
    let gated := s.pollCallGate id call wait
    if gated.1 = .ready then
      let proceeded := gated.2.1.proceed id call call.plan.pauses
      (proceeded.1,proceeded.2.1,gated.2.2 ++ proceeded.2.2)
    else (.ofOutcome gated.1,gated.2)

def pollHandle (s : Session α) (id : Nat) : Result α (Answer α) :=
  match s.lookup id with
  | none => (.noHandle,s,.none)
  | some (.waiting wait) =>
    let polled := s.pollWait id wait
    (.progress polled.1,polled.2)
  | some (.calling call) =>
    let polled := s.pollCall id call
    (.progress polled.1,polled.2)
  | some _ => (.notWaiting,s,.none)

-- A handle in use is dropped before the new one takes its place.
def launch (s : Session α) (id : Nat) (handle : Handle α) (unpolled : Bool) : Result α (Answer α) :=
  let released := s.release id
  let s := released.2.1.put id handle
  if unpolled then (.unpolled,s,released.2.2)
  else
    let polled := s.pollHandle id
    (polled.1,polled.2.1,released.2.2 ++ polled.2.2)

def tryAcquire (s : Session α) : Result α Booking :=
  let reserved := s.regulator.bucket.reserve s.now (.by s.now)
  (reserved.1,s.withBucket reserved.2,⟨[.reserve s.now (.by s.now)],[],[],reserved.1.permits,[]⟩)

-- None: a wait overflowed.
def drain : Nat → Nat → Session α → Result α (Option Nat)
  | 0, taken, s => (some taken,s,.none)
  | most + 1, taken, s =>
    match s.tryAcquire with
    | (.refused,s,trace) => (some taken,s,trace)
    | (.overflow,s,trace) => (none,s,trace)
    | (.booked _,s,trace) =>
      let rest := drain most (taken + 1) s
      (rest.1,rest.2.1,trace ++ rest.2.2)

def acquireAwait (s : Session α) : Result α Progress :=
  let ops := [Bucket.Op.reserve s.now .anyTime]
  match s.regulator.bucket.reserve s.now .anyTime with
  | (.booked ready,bucket) =>
    if ready ≤ s.now then (.ready,s.withBucket bucket,.ofPass ops [])
    else (.ready,{ s.withBucket bucket with now := Nanos.wake ready s.now },.ofPass ops [])
  | (_,bucket) => (.overflow,s.withBucket bucket,.ofOps ops)

def giveCancel (s : Session α) (id : Nat) : Bool × Session α :=
  match s.lookup id with
  | some (.waiting wait) =>
    if wait.cancel = .silent then (true,s.put id (.waiting { wait with cancel := .given }))
    else (false,s)
  | _ => (false,s)

-- None if there is no stream.
def readItem (s : Session α) (id : Nat) : Result α (Option (Next α)) :=
  match s.lookup id with
  | some (.bare script) => (some script.next.1,s.put id (.bare script.next.2),.none)
  | some (.relaying relay) =>
    let next := relay.next
    let s := s.put id (.relaying next.2.1)
    match next.2.2 with
    | .nothing => (some next.1,s,.none)
    | .completed => (some next.1,s,.ofNotices [.callCompleted])
    | .signal signal =>
      (some next.1,(s.round (s.regulator.hear relay.tuning s.now signal)).2)
  | _ => (none,s,.none)

def scriptLength (s : Session α) (id : Nat) : Nat :=
  match s.lookup id with
  | some (.bare script) => script.length
  | some (.relaying relay) => relay.script.length
  | _ => 0

def readItems : Nat → Nat → Session α → Result α (List (Next α))
  | 0, _, s => ([],s,.none)
  | fuel + 1, id, s =>
    match s.readItem id with
    | (none,s,trace) => ([],s,trace)
    | (some .pending,s,trace) => ([.pending],s,trace)
    | (some .ended,s,trace) => ([.ended],s,trace)
    | (some item,s,trace) =>
      let rest := readItems fuel id s
      (item :: rest.1,rest.2.1,trace ++ rest.2.2)

def tuningOf (s : Session α) : Option Nat → Option Tuning
  | none => some s.tuning
  | some service => (s.services[service]?).map fun service => service.tuning

def addService (s : Session α) (service : Service) : Result α (Answer α) :=
  (.count s.services.length,{ s with services := s.services ++ [service] },.none)

def createBackend (s : Session α) : Backend × Session α :=
  (.fresh s.instances,{ s with instances := s.instances + 1 })

-- A call whose deadline the clock cannot hold is lost, and the polled instance with it.
def call (s : Session α) (id number : Nat) (plan : Plan α) (unpolled : Bool) : Result α (Answer α) :=
  match s.services[number]? with
  | none => (.noService,s,.none)
  | some service =>
    let created := s.createBackend
    let s := { created.2 with
      services := created.2.services.set number { service with backend := created.1 } }
    match service.deadline s.now with
    | none => (.progress .overflow,s,.none)
    | some terms => s.launch id (.calling (service.call terms plan)) unpolled

def pollReady (s : Session α) (number : Nat) (inner : Readiness) : Result α (Answer α) :=
  match s.services[number]? with
  | none => (.noService,s,.none)
  | some service =>
    let answer : Progress := match inner with
      | .ready => .ready
      | .pending => .pending
      | .failed failure => .failed failure
    (.progress answer,{ s with services := s.services.set number (service.pollReady inner) },.none)

def snapshot (s : Session α) : Snapshot :=
  ⟨s.regulator.lower,s.regulator.upper,s.regulator.current,s.regulator.lastCommit,
    s.regulator.bucket.rate,true⟩

def step (s : Session α) : Action α → Result α (Answer α)
  | .advance duration => (.done,{ s with now := s.now + duration },.none)
  | .setRate rate =>
    (.done,s.operate [.retune rate],
      ⟨[.retune rate],if rate.Positive then [] else [.invalidRate rate],[],0,[]⟩)
  | .tryAcquire =>
    match s.tryAcquire with
    | (.booked _,s,trace) => (.flag true,s,trace)
    | (.refused,s,trace) => (.flag false,s,trace)
    | (.overflow,s,trace) => (.progress .overflow,s,trace)
  | .drain most =>
    match drain most 0 s with
    | (some count,s,trace) => (.count count,s,trace)
    | (none,s,trace) => (.progress .overflow,s,trace)
  | .acquire id unpolled => s.launch id (.waiting (.start .anyTime .absent)) unpolled
  | .acquireBefore id within unpolled =>
    s.launch id (.waiting (.start (.by (s.now + within)) .absent)) unpolled
  | .acquireCancellable id given unpolled =>
    s.launch id (.waiting (.start .anyTime (if given then .given else .silent))) unpolled
  | .acquireAwait =>
    let awaited := s.acquireAwait
    (.progress awaited.1,awaited.2)
  | .cancel id => (.flag (s.giveCancel id).1,(s.giveCancel id).2,.none)
  | .poll id => s.pollHandle id
  | .drop id =>
    let released := s.release id
    (.flag released.1,released.2)
  | .observe service samples =>
    match s.tuningOf service with
    | none => (.noService,s,.none)
    | some tuning =>
      let round := s.round (s.regulator.observe tuning s.now samples)
      (.verdict round.1,round.2)
  | .observeDeadline service =>
    match s.tuningOf service with
    | none => (.noService,s,.none)
    | some tuning =>
      let round := s.round (s.regulator.observeDeadline tuning s.now)
      (.verdict round.1,round.2)
  | .contains rate => (.flag (s.regulator.Contains rate),s,.none)
  | .stats => (.snapshot s.snapshot,s,.none)
  | .instanceOf number =>
    match s.services[number]? with
    | none => (.noService,s,.none)
    | some service => (.count service.backend.id,s,.none)
  | .clone number =>
    match s.services[number]? with
    | none => (.noService,s,.none)
    | some service =>
      s.createBackend.2.addService { service with backend := s.createBackend.1 }
  | .layer =>
    s.createBackend.2.addService ⟨s.createBackend.1,s.tuning⟩
  | .shareService settings =>
    match Service.new s.createBackend.1 settings (some s.regulator) s.now with
    | .error fault => (.fault fault,s.createBackend.2,.none)
    | .ok (service,_) => s.createBackend.2.addService service
  | .shareLayer settings =>
    match Tuning.over settings with
    | .error fault => (.fault fault,s,.none)
    | .ok tuning =>
      s.createBackend.2.addService ⟨s.createBackend.1,tuning⟩
  | .pollReady number inner => s.pollReady number inner
  | .call id number plan unpolled => s.call id number plan unpolled
  | .next id =>
    match s.readItem id with
    | (none,s,trace) => (.noStream,s,trace)
    | (some item,s,trace) => (.item item,s,trace)
  | .collect id =>
    match readItems (s.scriptLength id + 1) id s with
    | ([],s,trace) => (.noStreamItems,s,trace)
    | (items,s,trace) => (.items items,s,trace)
  | .callState id =>
    match s.lookup id with
    | some (.relaying relay) => (.callState relay.stage relay.script.sizeHint,s,.none)
    | _ => (.noStream,s,.none)
  | .unwrap id =>
    match s.lookup id with
    | some (.relaying relay) => (.unwrapped,s.put id (.bare relay.script),.none)
    | _ => (.noStream,s,.none)

def run (s : Session α) : List (Action α) → List (Answer α × Trace α) × Session α
  | [] => ([],s)
  | action :: rest =>
    let stepped := s.step action
    let ran := stepped.2.1.run rest
    ((stepped.1,stepped.2.2) :: ran.1,ran.2)

end LoadPacing.Session
