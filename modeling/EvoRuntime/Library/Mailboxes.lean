import Mathlib.Data.Set.Insert
import Mathlib.Data.List.Basic
import Mathlib.Logic.Function.Basic

/-!
# Mailboxes

Members join and leave a hub, which keeps a mailbox for each of them. What is announced
goes to all members, and what is told to somebody goes to this member, or is lost if
there is no such member.
-/
namespace EvoRuntime.Library

variable {κ μ : Type*}

@[ext]
structure Hub (κ μ : Type*) where
  members : Set κ
  mailbox : κ → List μ

inductive HubEvent (κ μ : Type*) where
  | join (member : κ)
  | leave (member : κ)
  | leaveAll
  | announce (mail : μ)
  | tell (member : κ) (mail : μ)

namespace Hub

def empty : Hub κ μ := ⟨∅, fun _ => []⟩

open Classical in
/-- What a member gets by an event. -/
noncomputable def mailOf (members : Set κ) (event : HubEvent κ μ) (member : κ) : List μ :=
  match event with
  | .announce mail => if member ∈ members then [mail] else []
  | .tell addressee mail => if addressee = member ∧ member ∈ members then [mail] else []
  | _ => []

section

variable {members : Set κ} {member : κ}

theorem mailOf_announce (joined : member ∈ members) (mail : μ) :
    mailOf members (.announce mail) member = [mail] :=
  if_pos joined

theorem mailOf_tell (joined : member ∈ members) (mail : μ) :
    mailOf members (.tell member mail) member = [mail] :=
  if_pos ⟨rfl, joined⟩

theorem mailOf_tell_other {addressee : κ} (differ : addressee ≠ member) (mail : μ) :
    mailOf members (.tell addressee mail) member = [] :=
  if_neg fun both => differ both.1

theorem mailOf_absent (absent : member ∉ members) (event : HubEvent κ μ) :
    mailOf members event member = [] := by
  cases event with
  | announce mail => exact if_neg absent
  | tell other mail => exact if_neg fun both => absent both.2
  | _ => rfl

end

def membersAfter (members : Set κ) : HubEvent κ μ → Set κ
  | .join member => insert member members
  | .leave member => members \ {member}
  | .leaveAll => ∅
  | _ => members

noncomputable def after (hub : Hub κ μ) (event : HubEvent κ μ) : Hub κ μ where
  members := membersAfter hub.members event
  mailbox member := hub.mailbox member ++ mailOf hub.members event member

/-- An event that carries no mail. -/
theorem after_eq {hub : Hub κ μ} {event : HubEvent κ μ}
    (silent : ∀ member, mailOf hub.members event member = []) :
    hub.after event = ⟨membersAfter hub.members event, hub.mailbox⟩ := by
  refine Hub.ext rfl (funext fun member => ?_)
  exact (congrArg (hub.mailbox member ++ ·) (silent member)).trans (List.append_nil _)

theorem not_mem_after {event : HubEvent κ μ} {member : κ} (differ : HubEvent.join member ≠ event)
    {hub : Hub κ μ} (absent : member ∉ hub.members) : member ∉ (hub.after event).members := by
  cases event with
  | join other =>
    rintro (rfl | old)
    · exact differ rfl
    · exact absent old
  | leave other => exact fun kept => absent kept.1
  | leaveAll => exact id
  | announce mail => exact absent
  | tell other mail => exact absent

/-- Nobody gets mail before joining. -/
theorem mailbox_foldl {events : List (HubEvent κ μ)} {member : κ}
    (apart : HubEvent.join member ∉ events) {hub : Hub κ μ} (absent : member ∉ hub.members) :
    (events.foldl after hub).mailbox member = hub.mailbox member := by
  induction events generalizing hub with
  | nil => rfl
  | cons event events ih =>
    obtain ⟨differ, later⟩ := not_or.mp (mt List.mem_cons.mpr apart)
    rw [List.foldl_cons, ih later (not_mem_after differ absent)]
    exact (congrArg (hub.mailbox member ++ ·) (mailOf_absent absent event)).trans
      (List.append_nil _)

end Hub

end EvoRuntime.Library
