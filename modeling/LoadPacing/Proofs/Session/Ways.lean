import LoadPacing.Proofs.Bucket.Waiting
import LoadPacing.Proofs.Session.FirstPolls
import LoadPacing.Proofs.Session.Openings

-- One attempt on the spot and four waits, compared.
namespace LoadPacing

namespace Nanos
variable {now ready : Nanos}

theorem not_rung_early (late : now < ready) (ticks : now.floorMilli < lastTick) : ¬ Rung ready now := by
  have clock : tickOfClock now = now.floorMilli := Nat.min_eq_left ticks.le
  have next : now.floorMilli + 1 ≤ ready.ceilMilli := by
    have milli : 0 < perMilli := by decide
    have within : now + perMilli ≤ ready + (perMilli - 1) := by lia
    calc now.floorMilli + 1 = (now + perMilli) / perMilli := (Nat.add_div_right now milli).symm
      _ ≤ ready.ceilMilli := Nat.div_le_div_right within
  have waiting : now.floorMilli + 1 ≤ tickOfWait ready := Nat.le_min.mpr ⟨next,ticks⟩
  unfold Rung
  rw [clock]
  exact Nat.not_le.mpr waiting

-- At its last tick it has rung for every instant.
theorem rung_last (ticked : lastTick ≤ now.floorMilli) : Rung ready now := by
  have clock : tickOfClock now = lastTick := Nat.min_eq_right ticked
  unfold Rung
  rw [clock]
  exact Nat.min_le_right _ _

end Nanos

theorem Terms.later_refused {now ready : Nanos} (late : now < ready) : ¬ Terms.Accept (.by now) ready :=
  fun accepted => Nat.not_le.mpr late (Int.ofNat_le.mp accepted)

-- A wait of one of these kinds, polled once as it is begun.
inductive Way where
  | plain
  | cancellable (given : Bool)
  | before (within : Int)
  deriving DecidableEq

namespace Way

def action (id : Nat) : Way → Action α
  | .plain => .acquire id false
  | .cancellable given => .acquireCancellable id given false
  | .before within => .acquireBefore id within false

def wait (now : Nanos) : Way → Wait
  | .plain => .start .anyTime .absent
  | .cancellable given => .start .anyTime (if given then .given else .silent)
  | .before within => .start (.by (now + within)) .absent

def immediate : List Way := [.plain,.cancellable false,.cancellable true,.before 0]

def Patient (now ready : Nanos) : Way → Prop
  | .plain => True
  | .cancellable given => given = false
  | .before within => ready ≤ now + within

variable {way : Way} {now ready : Nanos}

theorem immediate_cases (immediate : way ∈ immediate) :
    way = .plain ∨ way = .cancellable false ∨ way = .cancellable true ∨ way = .before 0 := by
  simpa [Way.immediate] using immediate

theorem immediate_accept (immediate : way ∈ immediate) : (way.wait now).terms.Accept now := by
  rcases immediate_cases immediate with rfl | rfl | rfl | rfl
  · trivial
  · trivial
  · trivial
  · exact Int.le_of_eq (Int.add_zero _).symm

theorem patient_accept (patient : way.Patient now ready) : (way.wait now).terms.Accept ready := by
  cases way with
  | plain | cancellable => trivial
  | before within => exact patient

theorem patient_holds (patient : way.Patient now ready) : (way.wait now).cancel ≠ .given := by
  cases way with
  | plain | before => nofun
  | cancellable given =>
    cases patient
    nofun

theorem wait_fresh (way : Way) (now : Nanos) : (way.wait now).booked = none := by
  cases way <;> rfl

end Way

namespace Session
variable {s : Session α} {id : Nat} {way : Way} {ready : Nanos} {outcome : Wait.Outcome} {bucket : Bucket}

structure Comes (s : Session α) (id : Nat) (way : Way) (outcome : Wait.Outcome) (bucket : Bucket) : Prop where
  answer : (s.step (way.action id)).1 = .progress (.ofOutcome outcome)
  bucket : (s.step (way.action id)).2.1.regulator.bucket = bucket

structure Later (s : Session α) (id : Nat) (ready : Nanos) : Prop where
  timedOut : ∀ within, s.now + within < (ready : Int) →
    s.Comes id (.before within) (.failed .timedOut) (s.step .tryAcquire).2.1.regulator.bucket
  pending : s.now.floorMilli < Nanos.lastTick → ∀ way, way.Patient s.now ready →
    s.Comes id way .pending (s.regulator.bucket.reserve s.now .anyTime).2 ∧
      (s.step (way.action id)).2.1.standing id = some (.pending ready)
  cancelled : s.now.floorMilli < Nanos.lastTick →
    s.Comes id (.cancellable true) (.failed .cancelled) (s.regulator.bucket.reserve s.now .anyTime).2.giveBack
  rung : Nanos.lastTick ≤ s.now.floorMilli → ∀ way, way.Patient s.now ready ∨ way = .cancellable true →
    s.Comes id way .ready (s.regulator.bucket.reserve s.now .anyTime).2

structure WaysAgree (s : Session α) (id : Nat) : Prop where
  ready : (s.step .tryAcquire).1 = .flag true → ∀ way ∈ Way.immediate,
    s.Comes id way .ready (s.step .tryAcquire).2.1.regulator.bucket
  onTime : (s.step (.acquireBefore id 0 false)).1 = .progress .ready → (s.step .tryAcquire).1 = .flag true
  unrung : s.now.floorMilli < Nanos.lastTick → ∀ way ∈ Way.immediate,
    (s.step (way.action id)).1 = .progress .ready → (s.step .tryAcquire).1 = .flag true
  later : (s.step .tryAcquire).1 = .flag false → ∃ ready, s.now < ready ∧ s.Later id ready
  overflow : (s.step .tryAcquire).1 = .progress .overflow → ∀ way : Way,
    s.Comes id way .overflow (s.step .tryAcquire).2.1.regulator.bucket
  noOther : ∀ way : Way, (s.step (way.action id)).1 = .progress .overflow →
    (s.step .tryAcquire).1 = .progress .overflow

theorem way_launched (idle : s.Idle id) (way : Way) :
    Launched s id ((way.wait s.now).poll s.now s.regulator.bucket) (s.step (way.action id)) := by
  cases way with
  | plain | cancellable | before => exact launch_idle idle _

theorem tried (s : Session α) :
    (s.step .tryAcquire).1 = (match (s.regulator.bucket.reserve s.now (.by s.now)).1 with
      | .booked _ => .flag true
      | .refused => .flag false
      | .overflow => .progress .overflow) ∧
    (s.step .tryAcquire).2.1.regulator.bucket = (s.regulator.bucket.reserve s.now (.by s.now)).2 := by
  unfold step tryAcquire
  generalize s.regulator.bucket.reserve s.now (.by s.now) = reserved
  obtain ⟨booking,bucket⟩ := reserved
  cases booking <;> exact ⟨rfl,rfl⟩

section Compared
variable (idle : s.Idle id)
include idle

theorem way_comes {wait : Wait} {ops : List Bucket.Op}
    (polled : (way.wait s.now).poll s.now s.regulator.bucket = ⟨outcome,wait,bucket,ops⟩) : s.Comes id way outcome bucket := by
  have launched := way_launched idle way
  rw [polled] at launched
  exact ⟨launched.answer,launched.bucket⟩

theorem agree_lost (lost : (s.regulator.bucket.refill s.now).readyAt s.now = none) : s.WaysAgree id := by
  obtain ⟨answer,left⟩ := s.tried
  rw [Bucket.reserve_lost lost] at answer left
  dsimp only at answer left
  have comes : ∀ way : Way, s.Comes id way .overflow (s.regulator.bucket.refill s.now) := fun way =>
    way_comes idle (Wait.poll_lost (way.wait_fresh s.now) lost)
  constructor
  · rw [answer]
    nofun
  · exact fun due => absurd ((comes (.before 0)).answer.symm.trans due) nofun
  · exact fun _ way _ due => absurd ((comes way).answer.symm.trans due) nofun
  · rw [answer]
    nofun
  · rw [left]
    exact fun _ => comes
  · exact fun _ _ => answer

theorem way_told (told : (s.regulator.bucket.refill s.now).readyAt s.now = some ready) (way : Way) :
    (s.step (way.action id)).1 ≠ .progress .overflow := by
  have fresh := way.wait_fresh s.now
  have launched := way_launched idle way
  rw [launched.answer]
  by_cases accepted : (way.wait s.now).terms.Accept ready
  · by_cases due : ready ≤ s.now ∨ Nanos.Rung ready s.now
    · rw [Wait.poll_due fresh told accepted due]
      nofun
    · rw [Wait.poll_early fresh told accepted due]
      unfold Wait.hold
      split <;> nofun
  · rw [Wait.poll_late fresh told accepted]
    nofun

theorem agree_there (told : (s.regulator.bucket.refill s.now).readyAt s.now = some s.now) : s.WaysAgree id := by
  obtain ⟨answer,left⟩ := s.tried
  rw [Bucket.reserve_ready told (Int.le_refl _)] at answer left
  dsimp only at answer left
  constructor
  · intro _ way immediate
    rw [left]
    exact way_comes idle
      (Wait.poll_due (way.wait_fresh s.now) told (Way.immediate_accept immediate) (.inl (Nat.le_refl _)))
  · exact fun _ => answer
  · exact fun _ _ _ _ => answer
  · rw [answer]
    nofun
  · rw [answer]
    nofun
  · exact fun way lost => absurd lost (way_told idle told way)

theorem later_comes (told : (s.regulator.bucket.refill s.now).readyAt s.now = some ready) (late : s.now < ready) :
    s.Later id ready := by
  obtain ⟨_,left⟩ := s.tried
  rw [Bucket.reserve_late told (Terms.later_refused late)] at left
  have reserved : s.regulator.bucket.reserve s.now .anyTime = _ := Bucket.reserve_ready told trivial
  have early : s.now.floorMilli < Nanos.lastTick → ¬ (ready ≤ s.now ∨ Nanos.Rung ready s.now) := fun ticks =>
    not_or.mpr ⟨Nat.not_le.mpr late,Nanos.not_rung_early late ticks⟩
  constructor
  · intro within short
    rw [left]
    have expired : ¬ Terms.Accept (.by (s.now + within)) ready := Int.not_le.mpr short
    exact way_comes idle (Wait.poll_late rfl told expired)
  · intro ticks way patient
    rw [reserved]
    have polled := Wait.poll_early (way.wait_fresh s.now) told (Way.patient_accept patient) (early ticks)
    rw [Wait.hold,if_neg (Way.patient_holds patient)] at polled
    have launched := way_launched idle way
    rw [polled] at launched
    exact ⟨way_comes idle polled,launched.standing⟩
  · intro ticks
    rw [reserved]
    exact way_comes idle (Wait.poll_early rfl told trivial (early ticks))
  · intro ticked way taken
    rw [reserved]
    have accepted : (way.wait s.now).terms.Accept ready := by
      rcases taken with patient | rfl
      · exact Way.patient_accept patient
      · trivial
    exact way_comes idle (Wait.poll_due (way.wait_fresh s.now) told accepted (.inr (Nanos.rung_last ticked)))

theorem agree_later (told : (s.regulator.bucket.refill s.now).readyAt s.now = some ready) (late : s.now < ready) :
    s.WaysAgree id := by
  have later := later_comes idle told late
  have answer := s.tried.1
  rw [Bucket.reserve_late told (Terms.later_refused late)] at answer
  dsimp only at answer
  have onTime : (s.step (Way.action id (.before 0))).1 ≠ .progress .ready := by
    have short : s.now + (0 : Int) < ready := by
      rw [Int.add_zero]
      exact Int.ofNat_lt.mpr late
    rw [(later.timedOut 0 short).answer]
    nofun
  constructor
  · rw [answer]
    nofun
  · exact fun due => absurd due onTime
  · intro ticks way immediate due
    refine absurd due ?_
    rcases Way.immediate_cases immediate with rfl | rfl | rfl | rfl
    · rw [(later.pending ticks .plain trivial).1.answer]
      nofun
    · rw [(later.pending ticks (.cancellable false) rfl).1.answer]
      nofun
    · rw [(later.cancelled ticks).answer]
      nofun
    · exact onTime
  · exact fun _ => ⟨ready,late,later⟩
  · rw [answer]
    nofun
  · exact fun way lost => absurd lost (way_told idle told way)

end Compared

-- At the last tick of the timer a wait for a later instant is over at once.
theorem ways_agree (idle : s.Idle id) : s.WaysAgree id := by
  cases told : (s.regulator.bucket.refill s.now).readyAt s.now with
  | none => exact agree_lost idle told
  | some ready =>
    rcases (Bucket.now_le_ready told).eq_or_lt with rfl | late
    · exact agree_there idle told
    · exact agree_later idle told late

theorem ways_agree_half_second :
    let opened : Session Unit := ⟨0,⟨2,2,2,none,⟨2,0,1,0⟩⟩,.of .default,[],[],0,0⟩
    let found := (opened.run [.tryAcquire]).2
    found.standing 0 = none ∧
    (found.step (.acquireBefore 0 500000000 false)).1 = .progress .pending ∧
    (found.step (.acquireBefore 0 499999999 false)).1 = .progress (.failed (.gate .timedOut)) ∧
    (found.step (.acquireCancellable 0 true false)).1 = .progress (.failed (.gate .cancelled)) := by
  intro opened found
  have absent : found.standing 0 = none := by decide +kernel
  have agree := ways_agree (idle_absent absent)
  have ticks : found.now.floorMilli < Nanos.lastTick := by decide +kernel
  have refused : (found.step .tryAcquire).1 = .flag false := by
    have booking : (found.regulator.bucket.reserve found.now (.by found.now)).1 = .refused := by decide +kernel
    rw [found.tried.1,booking]
  obtain ⟨ready,_,later⟩ := agree.later refused
  have half : ready = 500000000 := by
    have booked : (found.step (.acquire 0 false)).2.1.standing 0 = some (.pending 500000000) := by decide +kernel
    have same := (later.pending ticks .plain trivial).2.symm.trans booked
    cases same
    rfl
  have now : (found.now : Int) = 0 := by decide +kernel
  have patient : Way.Patient found.now ready (.before 500000000) := by
    show (ready : Int) ≤ found.now + 500000000
    rw [half,now]
    decide
  have short : found.now + (499999999 : Int) < ready := by
    rw [half,now]
    decide
  exact ⟨absent,(later.pending ticks _ patient).1.answer,(later.timedOut _ short).answer,(later.cancelled ticks).answer⟩

theorem last_tick_parts_ways :
    ∃ opened : Session Unit, gate 1 0 = .ok opened ∧
      let found := (opened.run [.advance (Nanos.lastTick * Nanos.perMilli),.tryAcquire]).2
      (found.step .tryAcquire).1 = .flag false ∧ (found.step (.acquire 0 false)).1 = .progress .ready := by
  let opened : Session Unit := ⟨0,⟨1,1,1,none,⟨1,0,1,0⟩⟩,.of .default,[],[],0,0⟩
  refine ⟨opened,gate_opened (by decide +kernel) (by decide +kernel),?_⟩
  intro found
  have absent : found.standing 0 = none := by decide +kernel
  have told : (found.regulator.bucket.refill found.now).readyAt found.now = some (found.now + Nanos.perSecond) := by
    decide +kernel
  have late : found.now < found.now + Nanos.perSecond := Nat.lt_add_of_pos_right (by decide)
  have booking : (found.regulator.bucket.reserve found.now (.by found.now)).1 = .refused := by decide +kernel
  have later := later_comes (idle_absent absent) told late
  refine ⟨?_,(later.rung (by decide +kernel) .plain (.inl trivial)).answer⟩
  rw [found.tried.1,booking]

end Session
end LoadPacing
