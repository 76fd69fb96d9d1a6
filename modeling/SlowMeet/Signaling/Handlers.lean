import SlowMeet.Signaling.Flow

/-!
# How a handler comes to its section

The read loop starts the handler of a message and the handler runs its
sections in order: which step brings a connection to a section, and what is
known of the room there.
-/

namespace SlowMeet.Signaling

open Lib Media

namespace Hub

variable {h h' : Hub} {c : ClientId}

/-- How the handler of `c` comes to the section `handler`. -/
inductive Handles (h : Hub) (c : ClientId) : Label → Handler → Prop
  | mediaState (allowed : Bool) (p : Participant) (audio video paused : Option Bool)
      (hp : (h.client c).participant = some p) :
      Handles h c (.receive c allowed (some (.mediaState audio video paused)))
        (.relaying ⟨p.id, audio, video, paused⟩)
  | reaction (allowed : Bool) (p : Participant) (emoji : String)
      (hp : (h.client c).participant = some p) :
      Handles h c (.receive c allowed (some (.reaction emoji))) (.reacting p.id p.name emoji)
  | handState (allowed : Bool) (p : Participant) (raised : Bool) (meeting : Meeting)
      (changed : List Participant) (hp : (h.client c).participant = some p)
      (hraised : h.meeting.setRaisedHand p.id raised = some (meeting, changed)) :
      Handles h c (.receive c allowed (some (.handState p.id raised))) (.raising changed)
  | raise (ok : Bool) (q : Participant) (changed : List Participant)
      (hphase : (h.client c).phase = .handling (.raising (q :: changed))) :
      Handles h c (.run c ok) (.raisedCast q changed)
  | raised (ok : Bool) (q : Participant) (changed : List Participant)
      (hphase : (h.client c).phase = .handling (.raisedCast q changed)) :
      Handles h c (.run c ok) (.raising changed)
  | screenShare (allowed : Bool) (p : Participant) (active : Bool) (streamID trackID : String)
      (hp : (h.client c).participant = some p)
      (hallowed : active = true → h.config.enableScreenShare = true) :
      Handles h c (.receive c allowed (some (.screenShare active streamID trackID)))
        (.sharing active streamID trackID)
  | shared (ok : Bool) (active : Bool) (streamID trackID : String)
      (change : Option (Option ParticipantID))
      (hphase : (h.client c).phase = .handling (.sharing active streamID trackID)) :
      Handles h c (.run c ok) (.shared active change)
  | sharedCast (ok : Bool) (active : Bool) (owner : Option ParticipantID)
      (hphase : (h.client c).phase = .handling (.shared active (some owner))) :
      Handles h c (.run c ok) (.sharedCast owner)
  | retainedChat (allowed : Bool) (p : Participant) (text : List Char)
      (hp : (h.client c).participant = some p) (hretain : h.config.retainChatHistory = true) :
      Handles h c (.receive c allowed (some (.chat text)))
        (.chatting ⟨p.id, p.name, trimSpace text⟩
          (some (ChatMessage.entry ⟨p.id, p.name, trimSpace text⟩ h.nextID)))
  | chat (allowed : Bool) (p : Participant) (text : List Char)
      (hp : (h.client c).participant = some p) (hretain : h.config.retainChatHistory = false) :
      Handles h c (.receive c allowed (some (.chat text)))
        (.chatting ⟨p.id, p.name, trimSpace text⟩ none)

theorem handles_runHandler {p : Participant} {handler handler' : Handler} (ok : Bool)
    (hphase : (h.client c).phase = .handling handler)
    (hphase' : ((h.runHandler c p handler).client c).phase = .handling handler') :
    h.Handles c (.run c ok) handler' := by
  cases handler with
  | raising changed =>
    cases changed with
    | nil => simp [runHandler] at hphase'
    | cons q changed =>
      simp only [runHandler, phase_goto, Phase.handling.injEq] at hphase'
      subst hphase'
      exact .raise ok q changed hphase
  | raisedCast q changed =>
    simp only [runHandler, phase_goto, Phase.handling.injEq] at hphase'
    subst hphase'
    exact .raised ok q changed hphase
  | sharing active streamID trackID =>
    simp only [runHandler, requestScreenShare] at hphase'
    split at hphase'
    · simp at hphase'
    · rw [phase_goto, Phase.handling.injEq] at hphase'
      subst hphase'
      exact .shared ok active streamID trackID _ hphase
  | shared active change =>
    cases change with
    | none => simp [runHandler] at hphase'
    | some owner =>
      simp only [runHandler, phase_goto, Phase.handling.injEq] at hphase'
      subst hphase'
      exact .sharedCast ok active owner hphase
  | relaying _ | reacting _ _ _ | sharedCast _ | chatting _ _ => simp [runHandler] at hphase'

theorem handles_receive {allowed : Bool} {input : Option Request} {handler : Handler}
    (hphase : (h.client c).phase = .reading) (hreceive : h.Receives c input h')
    (hphase' : (h'.client c).phase = .handling handler) :
    h.Handles c (.receive c allowed input) handler := by
  cases hreceive with
  | mediaState p audio video paused hp =>
    rw [phase_goto] at hphase'
    cases hphase'
    exact .mediaState allowed p _ _ _ hp
  | handState p raised meeting changed hp hraised =>
    rw [phase_goto] at hphase'
    cases hphase'
    exact .handState allowed p _ _ _ hp hraised
  | screenShare p active streamID trackID hp hallowed =>
    rw [phase_goto] at hphase'
    cases hphase'
    exact .screenShare allowed p _ _ _ hp hallowed
  | retainedChat p text hp hretain =>
    rw [phase_goto] at hphase'
    cases hphase'
    exact .retainedChat allowed p text hp hretain
  | chat p text hp hretain =>
    rw [phase_goto] at hphase'
    cases hphase'
    exact .chat allowed p text hp hretain
  | reaction p emoji hp =>
    rw [phase_goto] at hphase'
    cases hphase'
    exact .reaction allowed p emoji hp
  | ignored _ _ | videoSubscriptions _ _ _ _ => simp [hphase] at hphase'
  | refused _ _ _ => simp [refuse, write, phase_update, Client.write, hphase] at hphase'
  | refusedJoin _ _ _ =>
    simp [refuse, write, phase_update, Client.write, countJoin, hphase] at hphase'
  | lost | expelled _ _ _ | reclaiming _ _ _ _ | joining _ _ _ => simp at hphase'
  | leave _ _ => simp [phase_update] at hphase'

/-- **How a handler comes to its section.** -/
theorem handles_step {l : Label} {handler : Handler} (hstep : h.Steps l h')
    (hphase' : (h'.client c).phase = .handling handler) :
    (h.client c).phase = .handling handler ∧ (∀ ok, l ≠ .run c ok) ∨ h.Handles c l handler := by
  by_cases hrun : ∃ ok, l = .run c ok
  · obtain ⟨ok, rfl⟩ := hrun
    right
    cases hstep with
    | run _ _ _ hrun =>
      have hnext := next_run hrun
      rw [hphase'] at hnext
      cases hrun with
      | handling p handled hp hphase => exact handles_runHandler ok hphase hphase'
      | _ => simp_all [Phase.Next]
  · rcases next_step hstep c with hsame | ⟨hhandler, hnext⟩
    · exact Or.inl ⟨hsame ▸ hphase', fun ok hl => hrun ⟨ok, hl⟩⟩
    · right
      cases hstep with
      | receive e allowed input _ hphase hreceive =>
        obtain rfl : e = c := by simpa [Label.handler] using hhandler
        exact handles_receive hphase hreceive hphase'
      | run e ok _ _ =>
        obtain rfl : e = c := by simpa [Label.handler] using hhandler
        exact absurd ⟨ok, rfl⟩ hrun
      | connect e hphase =>
        obtain rfl : e = c := by simpa [Label.handler] using hhandler
        simp [hphase, hphase', Phase.Next] at hnext
      | notify e e' p clients hphase hp he =>
        obtain rfl : e = c := by simpa [Label.handler] using hhandler
        simp at hphase'
      | _ => simp [Label.handler] at hhandler

end Hub

end SlowMeet.Signaling
