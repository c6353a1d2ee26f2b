import Mathlib.Data.Finset.Basic
import WebsocketProto.Outcome

/-! A room in which everyone hears a greeting for each one who comes in, and one's own words.
Nothing here depends on what members and messages are. -/
namespace WebsocketProto.Broadcast
open Outcome

inductive Action (ι μ : Type) where
  | join (c : ι)
  | say (c : ι) (message : μ)
  | leave (c : ι)
  deriving DecidableEq

/-- Who is inside, and what everyone was sent. -/
structure Room (ι μ : Type) where
  members : Finset ι
  sent : ι → List μ

/-- Why the room does not take an action. -/
inductive Refusal where
  | inside | outside
  deriving DecidableEq, Repr

variable {ι μ : Type} [DecidableEq ι]

def Room.empty : Room ι μ := ⟨∅, fun _ => []⟩

/-- Those outside may leave: not everyone who goes away was let in. -/
def Room.step (greeting : μ) (room : Room ι μ) : Action ι μ → Except Refusal (Room ι μ)
  | .join c =>
    if c ∈ room.members then .error .inside
    else
      let members := insert c room.members
      .ok ⟨members, fun d => if d ∈ members then room.sent d ++ [greeting] else room.sent d⟩
  | .say c message =>
    if c ∈ room.members then
      .ok { room with sent := Function.update room.sent c (room.sent c ++ [message]) }
    else .error .outside
  | .leave c => .ok { room with members := room.members.erase c }

/-- What an action is to one party. -/
inductive Sight (μ : Type) where
  | enters | greeted
  | speaks (message : μ)
  | goes
  deriving DecidableEq

/-- Of the others it sees that someone came in, and not who. -/
def Action.seenBy (c : ι) : Action ι μ → Option (Sight μ)
  | .join d => some (if d = c then .enters else .greeted)
  | .say d message => if d = c then some (.speaks message) else none
  | .leave d => if d = c then some .goes else none

def view (c : ι) (actions : List (Action ι μ)) : List (Sight μ) :=
  actions.filterMap (Action.seenBy c)

structure Ear (μ : Type) where
  inside : Bool
  heard : List μ

def Ear.hear (greeting : μ) (ear : Ear μ) : Sight μ → Ear μ
  | .enters => ⟨true, ear.heard ++ [greeting]⟩
  | .greeted => ⟨ear.inside, if ear.inside then ear.heard ++ [greeting] else ear.heard⟩
  | .speaks message => ⟨ear.inside, ear.heard ++ [message]⟩
  | .goes => ⟨false, ear.heard⟩

/-- What a party hears, by what it sees. -/
def listen (greeting : μ) (sights : List (Sight μ)) : Ear μ :=
  sights.foldl (Ear.hear greeting) ⟨false, []⟩

def Room.ear (room : Room ι μ) (c : ι) : Ear μ := ⟨decide (c ∈ room.members), room.sent c⟩

section Steps
variable {greeting : μ} {room room' : Room ι μ} {c : ι}

theorem step_join (outside : c ∉ room.members) : room.step greeting (.join c) = .ok
    ⟨insert c room.members, fun d =>
      if d ∈ insert c room.members then room.sent d ++ [greeting] else room.sent d⟩ :=
  if_neg outside

theorem step_say (inside : c ∈ room.members) (message : μ) :
    room.step greeting (.say c message) =
      .ok { room with sent := Function.update room.sent c (room.sent c ++ [message]) } :=
  if_pos inside

/-- An action reaches everyone by what they see of it. -/
theorem step_ear {action : Action ι μ} (done : room.step greeting action = .ok room') (c : ι) :
    room'.ear c = (action.seenBy c).elim (room.ear c) ((room.ear c).hear greeting) := by
  cases action with
  | join d =>
    rw [Room.step] at done
    split at done
    · contradiction
    cases done
    by_cases own : d = c
    · simp [Room.ear, Action.seenBy, Ear.hear, own]
    · simp [Room.ear, Action.seenBy, Ear.hear, own, Ne.symm own]
  | say d message =>
    rw [Room.step] at done
    split at done
    · cases done
      by_cases own : d = c
      · subst own
        simp [Room.ear, Action.seenBy, Ear.hear]
      · simp [Room.ear, Action.seenBy, own, Function.update_of_ne (Ne.symm own)]
    · contradiction
  | leave d =>
    cases done
    by_cases own : d = c
    · simp [Room.ear, Action.seenBy, Ear.hear, own]
    · simp [Room.ear, Action.seenBy, own, Ne.symm own]

theorem run_ear {actions : List (Action ι μ)} (done : run (Room.step greeting) room actions = .ok room')
    (c : ι) : room'.ear c = (view c actions).foldl (Ear.hear greeting) (room.ear c) := by
  induction actions generalizing room with
  | nil =>
    cases done
    rfl
  | cons action rest ih =>
    obtain ⟨next, taken, later⟩ := bind_eq_ok.mp done
    rw [ih later, step_ear taken, view, view, List.filterMap_cons]
    cases action.seenBy c with
    | none => rfl
    | some sight => rfl

end Steps

/-- Everyone has heard what their own view tells, whatever the others do. -/
theorem room_heard {greeting : μ} {room : Room ι μ} {actions : List (Action ι μ)}
    (done : run (Room.step greeting) .empty actions = .ok room) (c : ι) :
    room.sent c = (listen greeting (view c actions)).heard := by
  have ear := run_ear done c
  have start : (Room.empty : Room ι μ).ear c = ⟨false, []⟩ := by simp [Room.ear, Room.empty]
  rw [start] at ear
  exact congrArg Ear.heard ear

def Sight.spoken : Sight μ → Option μ
  | .speaks message => some message
  | _ => none

/-- What one hears of a sight while inside. -/
def Sight.word (greeting : μ) : Sight μ → μ
  | .speaks message => message
  | _ => greeting

/-- Who does not come in a second time is outside from the first time on that it goes. -/
theorem outside_stays (greeting : μ) {sights : List (Sight μ)} {ear : Ear μ}
    (never : .enters ∉ sights) (outside : ear.inside = false) :
    (sights.foldl (Ear.hear greeting) ear).inside = false := by
  induction sights generalizing ear with
  | nil => exact outside
  | cons sight rest ih =>
    obtain ⟨other, later⟩ := not_or.mp (List.mem_cons.not.mp never)
    refine ih later ?_
    cases sight with
    | enters => exact absurd rfl other
    | greeted | speaks | goes => simp [Ear.hear, outside]

/-- Who is inside from the first sight to the last hears every one of them. -/
theorem stays_hears {greeting : μ} {sights : List (Sight μ)} {ear : Ear μ}
    (never : .enters ∉ sights) (inside : ear.inside = true)
    (stays : (sights.foldl (Ear.hear greeting) ear).inside = true) :
    .goes ∉ sights ∧ (sights.foldl (Ear.hear greeting) ear).heard =
      ear.heard ++ sights.map (Sight.word greeting) := by
  induction sights generalizing ear with
  | nil => simp
  | cons sight rest ih =>
    obtain ⟨other, later⟩ := not_or.mp (List.mem_cons.not.mp never)
    rw [List.foldl_cons] at stays ⊢
    cases sight with
    | enters => exact absurd rfl other
    | goes =>
      have outside : (ear.hear greeting .goes).inside = false := rfl
      have gone := outside_stays greeting later outside
      rw [gone] at stays
      contradiction
    | greeted | speaks message =>
      obtain ⟨absent, heard⟩ := ih later (by simp [Ear.hear, inside]) stays
      refine ⟨by simp [absent], ?_⟩
      rw [heard]
      simp [Ear.hear, Sight.word, inside]

end WebsocketProto.Broadcast
