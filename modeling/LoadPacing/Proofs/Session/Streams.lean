import LoadPacing.Proofs.Relay.Items
import LoadPacing.Proofs.Session.Frame
import Mathlib.Logic.Function.Basic

-- Many streams are polled in turn; the rounds that are run are told by what they produce alone.
namespace LoadPacing

inductive Beat where
  | advance (duration : Nanos)
  | poll (id : Nat)
  deriving DecidableEq

def Beat.action : Beat → Action α
  | .advance duration => .advance duration
  | .poll id => .next id

def Beat.polls (id : Nat) (beats : List Beat) : Nat := beats.count (.poll id)

theorem Beat.polls_advance (id : Nat) (duration : Nanos) (rest : List Beat) :
    polls id (.advance duration :: rest) = polls id rest := List.count_cons_of_ne Beat.noConfusion

theorem Beat.polls_poll (polled : Nat → Nat) (id other : Nat) (rest : List Beat) :
    Function.update polled id (polled id + 1) other + polls other rest = polled other + polls other (.poll id :: rest) := by
  unfold polls
  by_cases equal : other = id
  · rw [equal,Function.update_self,List.count_cons_self]
    omega
  · rw [Function.update_of_ne equal,List.count_cons_of_ne]
    intro same
    cases same
    exact equal rfl

-- A signal of one of the streams, with the instant of its poll.
structure Cue where
  stream : Nat
  now : Nanos
  tuning : Tuning
  signal : Signal
  deriving DecidableEq

-- What the poll of this number of a stream signals.
def Relay.cue (relay : Relay α) (id : Nat) (now : Nanos) (poll : Nat) : Option Cue :=
  ((relay.script.produced poll).signal (relay.script.seen poll)).map (Cue.mk id now relay.tuning)

-- The signals of the streams in the order of the polls, of which the first ones are over.
def cues (streams : Nat → Option (Relay α)) (polled : Nat → Nat) (now : Nanos) : List Beat → List Cue
  | [] => []
  | .advance duration :: rest => cues streams polled (now + duration) rest
  | .poll id :: rest =>
    ((streams id).bind fun relay => relay.cue id now (polled id)).toList ++
      cues streams (Function.update polled id (polled id + 1)) now rest

namespace Regulator

def answer (r : Regulator) (cue : Cue) : Verdict × Regulator × List Notice :=
  match cue.signal with
  | .response report => r.observe cue.tuning cue.now (Load.sample report.readings)
  | .deadline => r.observeDeadline cue.tuning cue.now

def rounds (r : Regulator) : List Cue → Regulator × List Metric
  | [] => (r,[])
  | cue :: rest =>
    let answered := r.answer cue
    let later := answered.2.1.rounds rest
    (later.1,answered.2.2.flatMap Notice.metrics ++ later.2)

theorem rounds_append (r : Regulator) (first rest : List Cue) :
    r.rounds (first ++ rest) =
      (((r.rounds first).1.rounds rest).1,(r.rounds first).2 ++ ((r.rounds first).1.rounds rest).2) := by
  induction first generalizing r with
  | nil => rfl
  | cons cue later ih =>
    rw [List.cons_append,rounds,ih]
    simp only [rounds,List.append_assoc]

theorem hear_answer (r : Regulator) (cue : Cue) :
    (r.hear cue.tuning cue.now cue.signal).2.1 = (r.answer cue).2.1 ∧
    (r.hear cue.tuning cue.now cue.signal).2.2.flatMap Notice.metrics = (r.answer cue).2.2.flatMap Notice.metrics := by
  have quiet : ∀ verdict : Verdict,
      (if verdict = .noSignal then [] else [Notice.roundFinished verdict]).flatMap Notice.metrics = [] := by
    intro verdict
    split <;> rfl
  have dropped : ∀ readings, (Notice.ofDropped readings).flatMap Notice.metrics = [] := by
    intro readings
    unfold Notice.ofDropped
    induction Load.dropped readings with
    | nil => rfl
    | cons reading rest ih => exact ih
  unfold hear answer receive
  cases cue.signal with
  | response report => simp [quiet,dropped]
  | deadline => simp [quiet]

end Regulator

namespace Session
variable {s : Session α} {id : Nat} {relay : Relay α}

def stream (s : Session α) (id : Nat) : Option (Relay α) :=
  match s.lookup id with
  | some (.relaying relay) => some relay
  | _ => none

def metrics (s : Session α) (actions : List (Action α)) : List Metric :=
  (s.run actions).1.flatMap fun ran => ran.2.notices.flatMap Notice.metrics

theorem metrics_cons (s : Session α) (action : Action α) (rest : List (Action α)) :
    s.metrics (action :: rest) =
      (s.step action).2.2.notices.flatMap Notice.metrics ++ (s.step action).2.1.metrics rest := rfl

theorem stream_found (found : s.stream id = some relay) : s.lookup id = some (.relaying relay) := by
  unfold stream at found
  split at found
  · rename_i here
    cases found
    exact here
  · cases found

theorem stream_put (s : Session α) (id : Nat) (relay : Relay α) :
    (s.put id (.relaying relay)).stream id = some relay := by
  unfold stream
  rw [lookup_put]

theorem readItem_stream (found : s.stream id = some relay) :
    (s.readItem id).2.1.now = s.now ∧
    (s.readItem id).2.1.stream id = some relay.next.2.1 ∧
    match relay.next.2.2.signal? with
    | none =>
      (s.readItem id).2.1.regulator = s.regulator ∧ (s.readItem id).2.2.notices.flatMap Notice.metrics = []
    | some signal =>
      (s.readItem id).2.1.regulator = (s.regulator.hear relay.tuning s.now signal).2.1 ∧
      (s.readItem id).2.2.notices = (s.regulator.hear relay.tuning s.now signal).2.2 := by
  have put := s.stream_put id relay.next.2.1
  unfold readItem
  rw [stream_found found]
  dsimp only
  cases relay.next.2.2 with
  | nothing => exact ⟨rfl,put,rfl,rfl⟩
  | completed => exact ⟨rfl,put,rfl,rfl⟩
  | signal signal => exact ⟨rfl,put,rfl,rfl⟩

theorem next_absent (absent : s.stream id = none) :
    (s.step (.next id)).2.1.now = s.now ∧ (s.step (.next id)).2.1.stream id = none ∧
    (s.step (.next id)).2.1.regulator = s.regulator ∧ (s.step (.next id)).2.2.notices = [] := by
  rw [step_next_rest]
  unfold readItem
  cases here : s.lookup id with
  | none => exact ⟨rfl,absent,rfl,rfl⟩
  | some handle =>
    cases handle with
    | relaying relay => simp [stream,here] at absent
    | bare script =>
      refine ⟨rfl,?_,rfl,rfl⟩
      unfold stream
      dsimp only
      rw [lookup_put]
    | waiting | calling | finished => exact ⟨rfl,absent,rfl,rfl⟩

theorem stream_other (s : Session α) (different : other ≠ id) :
    (s.step (.next id)).2.1.stream other = s.stream other := by
  unfold stream
  rw [step_other s (.next id) fun same => different (Option.some.inj same).symm]

-- Every stream is where so many polls have left it since it was new.
def Heeds (streams : Nat → Option (Relay α)) (polled : Nat → Nat) (s : Session α) : Prop :=
  ∀ id, s.stream id = (streams id).map fun relay => relay.polled (polled id)

variable {streams : Nat → Option (Relay α)} {polled : Nat → Nat}

theorem poll_heeds (heeds : Heeds streams polled s) (id : Nat) :
    let cue := (streams id).bind fun relay => relay.cue id s.now (polled id)
    let after := s.step (.next id)
    after.2.1.now = s.now ∧
    Heeds streams (Function.update polled id (polled id + 1)) after.2.1 ∧
    (after.2.1.regulator,after.2.2.notices.flatMap Notice.metrics) = s.regulator.rounds cue.toList := by
  intro cue after
  have others : ∀ other, other ≠ id → after.2.1.stream other =
      (streams other).map fun relay => relay.polled (Function.update polled id (polled id + 1) other) := by
    intro other different
    rw [Function.update_of_ne different]
    exact (s.stream_other different).trans (heeds other)
  cases here : streams id with
  | none =>
    have absent : s.stream id = none := by rw [heeds id,here]; rfl
    obtain ⟨now,gone,regulator,notices⟩ := next_absent absent
    have silent : cue = none := by simp [cue,here]
    refine ⟨now,?_,?_⟩
    · intro other
      by_cases equal : other = id
      · rw [equal,gone,here]
        rfl
      · exact others other equal
    · rw [regulator,notices,silent]
      rfl
  | some relay =>
    have found : s.stream id = some (relay.polled (polled id)) := by rw [heeds id,here]; rfl
    obtain ⟨now,next,settled⟩ := readItem_stream found
    have stepped : after.2 = (s.readItem id).2 := s.step_next_rest id
    obtain ⟨_,went,heard⟩ := relay.next_polled (polled id)
    have cued : cue = relay.cue id s.now (polled id) := by simp [cue,here]
    refine ⟨by rw [stepped]; exact now,?_,?_⟩
    · intro other
      by_cases equal : other = id
      · rw [equal,stepped,here,Function.update_self]
        exact next.trans (congrArg some went)
      · exact others other equal
    · rw [cued,stepped,Relay.cue,← heard]
      cases signalled : (relay.polled (polled id)).next.2.2.signal? with
      | none =>
        rw [signalled] at settled
        rw [settled.1,settled.2]
        rfl
      | some signal =>
        rw [signalled] at settled
        obtain ⟨regulator,metrics⟩ := s.regulator.hear_answer ⟨id,s.now,relay.tuning,signal⟩
        rw [settled.1,settled.2]
        simp only [Option.map_some,Option.toList_some,Regulator.rounds,List.append_nil]
        exact Prod.ext regulator metrics

theorem beats_heed (heeds : Heeds streams polled s) (beats : List Beat) :
    let ran := s.run (beats.map Beat.action)
    Heeds streams (fun id => polled id + Beat.polls id beats) ran.2 ∧
    (ran.2.regulator,s.metrics (beats.map Beat.action)) = s.regulator.rounds (cues streams polled s.now beats) := by
  -- The streams stay what they were when they were new; the counts of their polls go on.
  induction beats generalizing s polled with
  | nil => exact ⟨heeds,rfl⟩
  | cons beat rest ih =>
    cases beat with
    | advance duration =>
      obtain ⟨left,rounds⟩ := @ih { s with now := s.now + duration } polled heeds
      refine ⟨?_,rounds⟩
      simp only [Beat.polls_advance]
      exact left
    | poll id =>
      obtain ⟨now,next,settled⟩ := poll_heeds heeds id
      obtain ⟨left,rounds⟩ := ih next
      rw [now] at rounds
      refine ⟨?_,?_⟩
      · simp only [Beat.polls_poll] at left
        exact left
      · rw [cues,Regulator.rounds_append,← settled,List.map_cons,metrics_cons]
        dsimp only
        rw [← rounds]
        rfl

def missed (id : Nat) (signals : List Cue) : Nat :=
  signals.countP fun cue => cue.stream = id ∧ cue.signal = .deadline

theorem missed_other (relay : Relay α) (now : Nanos) (poll : Nat) (different : other ≠ id) :
    missed id (relay.cue other now poll).toList = 0 := by
  unfold missed Relay.cue
  cases (relay.script.produced poll).signal (relay.script.seen poll) with
  | none => rfl
  | some signal => simp [different]

theorem missed_own (relay : Relay α) (id : Nat) (now : Nanos) (poll : Nat) :
    missed id (relay.cue id now poll).toList +
      (if (relay.script.seen (poll + 1)).any Next.isTerminal then 0 else 1) ≤
      if (relay.script.seen poll).any Next.isTerminal then 0 else 1 := by
  unfold missed Relay.cue Next.signal
  rw [Script.seen_succ,List.any_append]
  cases (relay.script.seen poll).any Next.isTerminal with
  | true => exact Nat.le_refl _
  | false =>
    cases relay.script.produced poll with
    | pending | response | ended => simp [Next.isTerminal]
    | failure fault => cases deadline : fault.isDeadline <;> simp [Next.isTerminal,deadline]

theorem missed_cues (streams : Nat → Option (Relay α)) (polled : Nat → Nat) (now : Nanos) (id : Nat)
    (beats : List Beat) :
    missed id (cues streams polled now beats) ≤
      if (streams id).any fun relay => (relay.script.seen (polled id)).any Next.isTerminal then 0 else 1 := by
  induction beats generalizing polled now with
  | nil => exact Nat.zero_le _
  | cons beat rest ih =>
    cases beat with
    | advance duration => exact ih polled (now + duration)
    | poll other =>
      have later := ih (Function.update polled other (polled other + 1)) now
      rw [cues,missed,List.countP_append,← missed,← missed]
      by_cases equal : other = id
      · subst equal
        rw [Function.update_self] at later
        cases here : streams other with
        | none => simpa [here,missed] using later
        | some relay =>
          rw [here] at later
          exact Nat.le_trans (Nat.add_le_add_left later _) (missed_own relay other now (polled other))
      · rw [Function.update_of_ne (Ne.symm equal)] at later
        cases streams other with
        | none => simpa [missed] using later
        | some relay => rwa [Option.bind_some,missed_other relay now (polled other) equal,Nat.zero_add]

-- A stream that is over stays as it ended.
theorem streams_fold (fresh : ∀ id relay, s.stream id = some relay → relay.stage = .started) (beats : List Beat) :
    let after := (s.run (beats.map Beat.action)).2
    let signals := cues s.stream (fun _ => 0) s.now beats
    (after.regulator,s.metrics (beats.map Beat.action)) = s.regulator.rounds signals ∧
    (∀ id relay, s.stream id = some relay → after.stream id = some (relay.polled (Beat.polls id beats))) ∧
    (∀ earlier later id before, beats = earlier ++ later →
      (s.run (earlier.map Beat.action)).2.stream id = some before → before.stage.isTerminal →
      ∃ relay, after.stream id = some relay ∧ relay.stage = before.stage) ∧
    ∀ id, missed id signals ≤ 1 := by
  intro after signals
  have begins : Heeds s.stream (fun _ => 0) s := by
    intro id
    cases here : s.stream id with
    | none => rfl
    | some relay => rw [Option.map_some,Relay.polled_zero (fresh id relay here)]
  obtain ⟨left,rounds⟩ := beats_heed begins beats
  refine ⟨rounds,?_,?_,?_⟩
  · intro id relay found
    simp only [Nat.zero_add] at left
    rw [left id,found]
    rfl
  · intro earlier later id before split reached terminal
    have middle := (beats_heed begins earlier).1 id
    rw [reached] at middle
    obtain ⟨relay,found,rfl⟩ := Option.map_eq_some_iff.mp middle.symm
    refine ⟨_,by rw [left id,found]; rfl,?_⟩
    have seen : (relay.script.seen (Beat.polls id earlier)).any Next.isTerminal = true := by
      rw [← Stage.told_terminal]
      simpa [Relay.polled] using terminal
    simp only [Nat.zero_add]
    rw [split,Beat.polls,List.count_append,← Beat.polls,← Beat.polls]
    unfold Relay.polled
    dsimp only
    rw [Script.seen_add,Stage.told_append_ended seen]
  · intro id
    refine Nat.le_trans (missed_cues s.stream (fun _ => 0) s.now id beats) ?_
    split <;> decide

theorem streams_fold_two_overrun :
    let first : Tuning := ⟨60,10 * Nanos.perSecond,none⟩
    let opened : Session Unit := ⟨0,⟨1,100,10,none,⟨10,1,1,0⟩⟩,.of .default,[],
      [(0,.relaying (.new [.pause,.response ⟨(),some [⟨"a",30⟩]⟩,.failure .elapsed,.failure .elapsed,
          .response ⟨(),some [⟨"a",20⟩]⟩] first)),
        (1,.relaying (.new [.close,.response ⟨(),some [⟨"b",10⟩]⟩] (.of .default)))],0,0⟩
    let beats := [Beat.poll 0,.poll 1,.poll 0,.advance (20 * Nanos.perSecond),.poll 1,.poll 0,.poll 0,.poll 0]
    let signals : List Cue :=
      [⟨0,0,first,.response (some [⟨"a",30⟩])⟩,⟨0,20 * Nanos.perSecond,first,.deadline⟩]
    let after := (opened.run (beats.map Beat.action)).2
    cues opened.stream (fun _ => 0) 0 beats = signals ∧
    (after.regulator,opened.metrics (beats.map Beat.action)) = opened.regulator.rounds signals ∧
    after.regulator.current = 20 * (60 / Load.overload) ∧
    after.stream 0 = some ⟨[],.errored,first⟩ ∧ missed 0 signals ≤ 1 := by
  intro first opened beats signals after
  have fresh : ∀ id relay, opened.stream id = some relay → relay.stage = .started := by
    intro id relay found
    obtain ⟨entry,here,same⟩ := Option.map_eq_some_iff.mp (stream_found found)
    have member := List.mem_of_find?_eq_some here
    simp only [opened,List.mem_cons,List.not_mem_nil,or_false] at member
    obtain rfl | rfl := member <;> (cases same; rfl)
  have told : cues opened.stream (fun _ => 0) 0 beats = signals := by decide +kernel
  obtain ⟨rounds,streams,_,once⟩ := streams_fold fresh beats
  exact ⟨told,rounds.trans (congrArg opened.regulator.rounds told),by decide +kernel,
    (streams 0 _ rfl).trans (by decide +kernel),(congrArg (missed 0) told) ▸ once 0⟩

end Session
end LoadPacing
