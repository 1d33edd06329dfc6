import Iommu.Library.Transition

/-!
Channels that keep what they are given: a message goes in behind the others and comes out once all
before it have come out. A channel carries the messages sent into it, in their order.
-/

namespace Fifo

variable {Message : Type}

structure Channel (Message : Type) where
  pending : List Message
  delivered : List Message

inductive Action (Message : Type)
  | send (message : Message)
  | deliver

def Action.sent : Action Message → Option Message
  | send message => some message
  | deliver => none

namespace Channel

def empty : Channel Message := ⟨[], []⟩

def step (channel : Channel Message) : Action Message → Option (Channel Message)
  | .send message => some { channel with pending := channel.pending ++ [message] }
  | .deliver =>
      match channel.pending with
      | [] => none
      | message :: rest => some ⟨rest, channel.delivered ++ [message]⟩

def Carries (channel : Channel Message) (messages : List Message) : Prop :=
  ∃ actions, Transition.run step empty actions = some channel ∧
    actions.filterMap Action.sent = messages

theorem step_conserves {channel next : Channel Message} {action : Action Message}
    (stepped : channel.step action = some next) :
    next.delivered ++ next.pending =
      channel.delivered ++ channel.pending ++ action.sent.toList := by
  cases action with
  | send message =>
      obtain rfl := Option.some.inj stepped
      simp [Action.sent]
  | deliver =>
      simp only [step] at stepped
      cases waiting : channel.pending with
      | nil => simp [waiting] at stepped
      | cons message rest =>
          rw [waiting] at stepped
          obtain rfl := Option.some.inj stepped
          simp [Action.sent]

theorem run_conserves {start final : Channel Message} {actions : List (Action Message)}
    (reached : Transition.run step start actions = some final) :
    final.delivered ++ final.pending =
      start.delivered ++ start.pending ++ actions.filterMap Action.sent := by
  induction actions generalizing start with
  | nil =>
      simp only [Transition.run, Option.some.injEq] at reached
      simp [reached]
  | cons action rest ih =>
      obtain ⟨next, stepped, remaining⟩ := Transition.run_cons_iff.mp reached
      rw [ih remaining, step_conserves stepped, List.append_assoc]
      cases action with
      | send message => rfl
      | deliver => rfl

namespace Carries

variable {channel : Channel Message} {messages : List Message}

theorem empty : Carries (.empty : Channel Message) [] := ⟨[], rfl, rfl⟩

theorem send (carries : channel.Carries messages) (message : Message) :
    Carries ⟨channel.pending ++ [message], channel.delivered⟩ (messages ++ [message]) := by
  obtain ⟨actions, reached, sent⟩ := carries
  refine ⟨actions ++ [.send message], ?_, ?_⟩
  · rw [Transition.run_append, reached]
    rfl
  · rw [List.filterMap_append, sent]
    rfl

theorem deliver {message : Message} {rest : List Message} (carries : channel.Carries messages)
    (waiting : channel.pending = message :: rest) :
    Carries ⟨rest, channel.delivered ++ [message]⟩ messages := by
  obtain ⟨actions, reached, sent⟩ := carries
  refine ⟨actions ++ [.deliver], ?_, ?_⟩
  · rw [Transition.run_append, reached, Option.bind_some, Transition.run, step, waiting]
    rfl
  · rw [List.filterMap_append, sent]
    exact List.append_nil messages

/-- Nothing is lost, doubled or reordered. -/
theorem conserved (carries : channel.Carries messages) :
    channel.delivered ++ channel.pending = messages := by
  obtain ⟨actions, reached, sent⟩ := carries
  rw [run_conserves reached, sent]
  rfl

end Carries

end Channel

end Fifo
