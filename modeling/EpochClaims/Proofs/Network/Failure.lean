import EpochClaims.Proofs.Network.Blur

/-!
# Listeners that fail

What a listener raises becomes a line of the journal and nothing else, if it can
be spelled. To say so, `unfailing` takes all such failures out: out of the plans
of listeners, those that are only made in the course of acts included, and out of
the history, with the lines on the channel of events. This is a blur,
`Blur.failures`. Two networks that are then the same differ in failures alone. An act leads such
networks to such networks again, and it is answered alike in both
(`act_of_unfailing_eq`).
-/

namespace EpochClaims

mutual

/-- An act under whose plans nothing is raised that can be spelled. -/
def Act.unfailing : Act → Act
  | .call manager c => .call manager c
  | .watch manager listener p => .watch manager listener p.unfailing
  | .unwatch listener => .unwatch listener

/-- A plan with the same acts under which nothing is raised that can be spelled. -/
def Plan.unfailing : Plan → Plan
  | .always failure => .always (Raised.seen failure)
  | .times count acts failure rest =>
    .times count (Act.allUnfailing acts) (Raised.seen failure) rest.unfailing

def Act.allUnfailing : List Act → List Act
  | [] => []
  | a :: acts => a.unfailing :: Act.allUnfailing acts

end

def Listener.unfailing (l : Listener) : Listener :=
  { l with plan := l.plan.unfailing }

/-- What happens, without failures. -/
def Happening.unfailing? : Happening → Option Happening
  | .wrote line => if line.channel = .events then none else some (.wrote line)
  | .acted listener a answer => some (.acted listener a.unfailing answer)
  | h => some h

/-- The network as it would be without failures. -/
def Network.unfailing (net : Network) : Network :=
  { net with
    listeners := net.listeners.mapAll Listener.unfailing
    history := net.history.filterMap Happening.unfailing? }

/-- Calls and refusals are seen as they are, and failures are not seen. -/
def Blur.failures : Blur where
  call := id
  refusal := id
  keeps := fun line => line.channel ≠ .events
  perform_eq := fun m _ _ h => congrArg (fun c => (m.perform c).mapError id) h
  lines_eq := fun m _ _ h => congrArg (fun c => (m.lines c).filter _) h
  keeps_failureLine := fun _ _ => rfl

mutual

theorem Act.blurred_failures : ∀ a : Act, a.blurred .failures = a.unfailing
  | .call _ _ => rfl
  | .watch manager listener p => congrArg (Act.watch manager listener) p.blurred_failures
  | .unwatch _ => rfl

theorem Plan.blurred_failures : ∀ p : Plan, p.blurred .failures = p.unfailing
  | .always _ => rfl
  | .times count acts _ rest => by
      rw [Plan.blurred, Plan.unfailing, Act.allBlurred_failures acts, rest.blurred_failures]

theorem Act.allBlurred_failures :
    ∀ acts : List Act, Act.allBlurred .failures acts = Act.allUnfailing acts
  | [] => rfl
  | a :: acts => by
      rw [Act.allBlurred, Act.allUnfailing, a.blurred_failures, Act.allBlurred_failures acts]

end

theorem ActAnswer.blurred_failures (answer : ActAnswer) : answer.blurred .failures = answer := by
  cases answer with
  | called result m => exact congrArg (ActAnswer.called · m) (mapError_id result)
  | done => rfl

theorem Happening.blurred_failures? (h : Happening) : h.blurred? .failures = h.unfailing? := by
  cases h with
  | wrote line => by_cases hevents : line.channel = .events <;> simp [blurred?, unfailing?,
      Blur.failures, hevents]
  | called g c result => exact congrArg (some <| called g c ·) (mapError_id result)
  | announced _ _ _ _ => rfl
  | delivered _ _ _ _ => rfl
  | brokenOff _ _ _ _ => rfl
  | acted listener a answer =>
      rw [blurred?, unfailing?, a.blurred_failures, answer.blurred_failures]

namespace Network

variable {net net' : Network}

theorem blurred_failures (net : Network) : net.blurred .failures = net.unfailing := by
  have hlistener : Listener.blurred .failures = Listener.unfailing := by
    funext l
    rw [Listener.blurred, Listener.unfailing, l.plan.blurred_failures]
  have hhappening : Happening.blurred? .failures = Happening.unfailing? :=
    funext Happening.blurred_failures?
  rw [blurred, unfailing, hlistener, hhappening]

theorem unfailing_watch (net : Network) (manager listener : String) (p : Plan) :
    (net.watch manager listener p).unfailing =
      net.unfailing.watch manager listener p.unfailing := by
  rw [← blurred_failures, blurred_watch, blurred_failures, p.blurred_failures]

/-- Whoever fails, an act is answered alike and leads to the same network but
for the lines that tell of the failures. -/
theorem act_of_unfailing_eq {a a' : Act} (h : net.unfailing = net'.unfailing)
    (ha : a.unfailing = a'.unfailing) :
    (net.act a).1.unfailing = (net'.act a').1.unfailing ∧ (net.act a).2 = (net'.act a').2 := by
  rw [← blurred_failures, ← blurred_failures] at h
  rw [← a.blurred_failures, ← a'.blurred_failures] at ha
  obtain ⟨hafter, hanswer⟩ := act_of_blurred_eq h ha
  rw [blurred_failures, blurred_failures] at hafter
  rw [ActAnswer.blurred_failures, ActAnswer.blurred_failures] at hanswer
  exact ⟨hafter, hanswer⟩

end Network

end EpochClaims
