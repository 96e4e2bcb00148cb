import LoadPacing.Relay

-- What a reply stream produces from poll to poll, and what its relay makes of that.
namespace LoadPacing

def Item.next : Item α → Next α
  | .response reply => .response reply
  | .failure fault => .failure fault
  | .pause => .pending
  | .close => .ended

namespace Script

-- What the poll of this number gets, counted from 0.
def produced (script : Script α) (poll : Nat) : Next α :=
  match script[poll]? with
  | some item => item.next
  | none => .ended

def seen (script : Script α) (polls : Nat) : List (Next α) := (List.range polls).map script.produced

theorem next_produced (script : Script α) : script.next = (script.produced 0,script.drop 1) := by
  cases script with
  | nil => rfl
  | cons item rest => cases item <;> rfl

theorem produced_drop (script : Script α) (polls poll : Nat) :
    produced (script.drop polls) poll = script.produced (polls + poll) := by
  unfold produced
  rw [List.getElem?_drop]

theorem seen_succ (script : Script α) (polls : Nat) :
    script.seen (polls + 1) = script.seen polls ++ [script.produced polls] := by
  simp [seen,List.range_succ]

theorem seen_add (script : Script α) (first more : Nat) :
    script.seen (first + more) = script.seen first ++ seen (script.drop first) more := by
  induction more with
  | zero => simp [seen]
  | succ more ih => rw [← Nat.add_assoc,seen_succ,seen_succ,ih,produced_drop,List.append_assoc]

-- Polls until the script pauses or ends, with what is left of it.
def batch : Script α → List (Next α) × Script α
  | [] => ([.ended],[])
  | .pause :: rest => ([.pending],rest)
  | .close :: rest => ([.ended],rest)
  | .response reply :: rest => (.response reply :: (batch rest).1,(batch rest).2)
  | .failure fault :: rest => (.failure fault :: (batch rest).1,(batch rest).2)

theorem batch_nonempty (script : Script α) : script.batch.1 ≠ [] := by
  cases script with
  | nil => exact List.cons_ne_nil _ _
  | cons item rest => cases item <;> exact List.cons_ne_nil _ _

theorem seen_cons (item : Item α) (rest : Script α) (polls : Nat) :
    seen (item :: rest) (polls + 1) = item.next :: seen rest polls := by
  rw [Nat.add_comm,seen_add]
  rfl

theorem batch_seen (script : Script α) :
    ∃ polls, script.batch.1 = script.seen polls ∧ script.batch.2 = script.drop polls := by
  induction script with
  | nil => exact ⟨1,rfl,rfl⟩
  | cons item rest ih =>
    obtain ⟨polls,items,left⟩ := ih
    cases item with
    | pause | close => exact ⟨1,rfl,rfl⟩
    | response | failure =>
      refine ⟨polls + 1,?_,left⟩
      rw [seen_cons,← items]
      rfl

end Script

namespace Next

def isTerminal : Next α → Bool
  | .failure _ | .ended => true
  | .pending | .response _ => false

def isResponse : Next α → Bool
  | .response _ => true
  | .pending | .failure _ | .ended => false

-- An item counts only if none of those before it ended the call.
def signal (seen : List (Next α)) (item : Next α) : Option Signal :=
  if seen.any isTerminal then none
  else match item with
    | .response reply => some (.response reply.report)
    | .failure fault => if fault.isDeadline then some .deadline else none
    | .pending | .ended => none

end Next

-- Where these items leave a call: the first one that ends it decides.
def Stage.told (seen : List (Next α)) : Stage :=
  match seen.find? Next.isTerminal with
  | some (.failure _) => .errored
  | some _ => .completed
  | none => if seen.any Next.isResponse then .active else .started

namespace Stage

theorem told_terminal (seen : List (Next α)) : (told seen).isTerminal = seen.any Next.isTerminal := by
  unfold told
  cases found : seen.find? Next.isTerminal with
  | none =>
    have running : seen.any Next.isTerminal = false := by simpa using found
    rw [running]
    dsimp only
    split <;> rfl
  | some item =>
    have closed : seen.any Next.isTerminal = true :=
      List.any_eq_true.mpr ⟨item,List.mem_of_find?_eq_some found,List.find?_some found⟩
    rw [closed]
    cases item <;> rfl

theorem told_append_ended (closed : seen.any Next.isTerminal = true) (more : List (Next α)) :
    told (seen ++ more) = told seen := by
  obtain ⟨item,found⟩ : ∃ item, seen.find? Next.isTerminal = some item := by
    apply Option.isSome_iff_exists.mp
    rw [List.find?_isSome]
    exact List.any_eq_true.mp closed
  unfold told
  rw [List.find?_append,found,Option.some_or]
  cases item <;> rfl

theorem told_append_running (running : seen.any Next.isTerminal = false) (item : Next α) :
    told (seen ++ [item]) = (Relay.listen item (told seen)).1 := by
  have absent : seen.find? Next.isTerminal = none := by simpa using running
  unfold told
  rw [List.find?_append,absent]
  cases item with
  | pending => simp [Relay.listen,Next.isTerminal,Next.isResponse]
  | response response => simp [Relay.listen,Next.isTerminal,Next.isResponse]
  | failure failure => simp [Relay.listen,Next.isTerminal]
  | ended => simp [Relay.listen,Next.isTerminal]

end Stage

namespace Relay

def Heard.signal? : Heard → Option Signal
  | .signal heard => some heard
  | .nothing | .completed => none

def polled (relay : Relay α) (polls : Nat) : Relay α :=
  { relay with script := relay.script.drop polls, stage := Stage.told (relay.script.seen polls) }

theorem polled_zero {relay : Relay α} (fresh : relay.stage = .started) : relay.polled 0 = relay := by
  obtain ⟨script,stage,tuning⟩ := relay
  cases fresh
  rfl

theorem next_polled (relay : Relay α) (polls : Nat) :
    (relay.polled polls).next.1 = relay.script.produced polls ∧
    (relay.polled polls).next.2.1 = relay.polled (polls + 1) ∧
    (relay.polled polls).next.2.2.signal? = (relay.script.produced polls).signal (relay.script.seen polls) := by
  have item : Script.next (relay.script.drop polls) =
      (relay.script.produced polls,relay.script.drop (polls + 1)) := by
    rw [Script.next_produced,Script.produced_drop,List.drop_drop]
    rfl
  have terminal := Stage.told_terminal (relay.script.seen polls)
  unfold next polled
  dsimp only
  rw [item,terminal,Script.seen_succ]
  cases closed : (relay.script.seen polls).any Next.isTerminal with
  | true =>
    rw [Stage.told_append_ended closed]
    exact ⟨rfl,rfl,by simp [Next.signal,closed,Heard.signal?]⟩
  | false =>
    rw [Stage.told_append_running closed]
    refine ⟨rfl,rfl,?_⟩
    cases relay.script.produced polls with
    | pending | response | ended => simp [Next.signal,closed,listen,Heard.signal?]
    | failure failure =>
      cases deadline : failure.isDeadline <;> simp [Next.signal,closed,listen,Heard.signal?,deadline]

theorem next_forwards (relay : Relay α) :
    relay.next.1 = relay.script.next.1 ∧ relay.next.2.1.script = relay.script.next.2 := by
  unfold next
  dsimp only
  split <;> exact ⟨rfl,rfl⟩

end Relay
end LoadPacing
