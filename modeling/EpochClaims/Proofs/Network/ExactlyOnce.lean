import EpochClaims.Proofs.Network.Failure
import EpochClaims.Proofs.Network.Flattening
import EpochClaims.Proofs.Network.Roll

/-!
# Exactly-once delivery

While an act is performed, listeners may call managers, start and stop
listening, and fail by raising anything that can be spelled, to any depth. Even so
each committed call is announced once, and its event reaches its audience, each
subscriber once and in order, and nobody else (`ExactlyOnce`). The audience is who
is on the roll at that moment, and a failure leaves nothing but a line.

`Serves` is what one act, and any other command, keeps: it adds to the history
announcements with new numbers and all copies that they owe. Along the commands
that lead to a network this adds up to its whole history (`IsReached.serves`).
-/

namespace EpochClaims

open Happening

/-- The events that belong to a call and carry what it returns. -/
inductive Call.Announces : Call → Reply → Event → Prop
  | claimReceived (s : Submission) (v : Verdict) :
      Announces (.submit s) (.claimed v) (.claimReceived v.outcome)
  | disputeEnded (d : Dispute) (v : Verdict) :
      Announces (.dispute d) (.judged v) (.disputeEnded v.outcome)
  | newEpoch (account : Argument) (claim : Option Claim) :
      Announces (.advance account) (.closed claim) (.newEpoch (.text (Claim.textOf claim)))

theorem Manager.Committed.announces {m : Manager} {c : Call} {s : State m.capacity} {r : Reply}
    (h : m.Committed c s r) : c.Announces r r.event := by
  cases h with
  | endorsed _ _ => exact .claimReceived _ _
  | contradicted _ _ _ => exact .claimReceived _ _
  | upheld _ _ => exact .disputeEnded _ _
  | adopted _ _ _ => exact .disputeEnded _ _
  | contested _ _ _ _ => exact .disputeEnded _ _
  | closed _ => exact .newEpoch _ _

/-- A committed call has an event that goes with it, and an audience holds
nobody twice. -/
def Happening.IsSound : Happening → Prop
  | .called _ c (.ok r) => c.Announces r r.event
  | .announced _ _ _ audience => audience.Nodup
  | _ => True

theorem Happening.isSound_wrote (lines : List Line) : ∀ x ∈ lines.map wrote, x.IsSound := by
  simp [IsSound]

/-- In a history each committed call is announced once, by an event of its own
with what the call returns, and each announcement is delivered once to everyone
in its audience, in order, and to nobody else. -/
structure ExactlyOnce (history : List Happening) : Prop where
  announced : history.filterMap announcement? = history.filterMap commitment?
  announces : ∀ g c r, .called g c (.ok r) ∈ history → c.Announces r r.event
  numbered : (emissions history).Nodup
  delivered : ∀ n g e audience, .announced n g e audience ∈ history →
    audience.Nodup ∧ copies n history = audience.map fun s => (g, e, s)
  undelivered : ∀ n, n ∉ emissions history → copies n history = []

namespace Network

variable {net net' : Network} {added : List Happening}

theorem Change.isSound (h : Change net added net') (htidy : net.Tidy) :
    ∀ x ∈ added, x.IsSound := by
  cases h with
  | committed _ hperform =>
      obtain ⟨_, -, hcommit⟩ := Manager.perform_eq_ok_iff.1 hperform
      exact List.forall_mem_singleton.2 hcommit.announces
  | announced g _ => exact List.forall_mem_singleton.2 (htidy.nodup g)
  | wrote lines => exact isSound_wrote lines
  | ingested _ => exact List.forall_mem_cons.2 ⟨trivial, isSound_wrote _⟩
  | kept _ => exact List.forall_mem_cons.2 ⟨trivial, isSound_wrote _⟩
  | settled _ => exact isSound_wrote _
  | refused _ _ => exact List.forall_mem_singleton.2 trivial
  | heard _ _ _ _ => exact List.forall_mem_singleton.2 trivial
  | brokenOff _ _ _ _ => exact List.forall_mem_singleton.2 trivial
  | acted _ _ _ => exact List.forall_mem_singleton.2 trivial
  | planned _ _ => exact List.forall_mem_nil _
  | watched _ _ _ => exact List.forall_mem_nil _
  | unwatched _ => exact List.forall_mem_nil _

theorem Path.isSound (h : Path net added net') (htidy : net.Tidy) : ∀ x ∈ added, x.IsSound := by
  induction h with
  | refl _ => exact List.forall_mem_nil _
  | next hchange _ ih =>
      exact List.forall_mem_append.2 ⟨hchange.isSound htidy, ih (hchange.tidy htidy)⟩

/-- On the way from one network to another all committed calls are announced,
under new numbers, and all that is owed under a number is delivered. -/
structure Serves (net : Network) (added : List Happening) (net' : Network) : Prop where
  history_eq : net'.history = net.history ++ added
  numbers : Numbers net added net'
  announced : added.filterMap announcement? = added.filterMap commitment?
  isSound : ∀ x ∈ added, x.IsSound
  copies_eq : ∀ n, copies n added = owed n added

theorem Serves.trans {last : Network} {more : List Happening} (h : Serves net added net')
    (hmore : Serves net' more last) : Serves net (added ++ more) last where
  history_eq := by rw [hmore.history_eq, h.history_eq, List.append_assoc]
  numbers := h.numbers.trans hmore.numbers
  announced := by
    rw [List.filterMap_append, List.filterMap_append, h.announced, hmore.announced]
  isSound := List.forall_mem_append.2 ⟨h.isSound, hmore.isSound⟩
  copies_eq := by
    intro n
    rw [copies_append, owed_append, h.copies_eq, hmore.copies_eq]

/-- Lines serve nobody. -/
theorem serves_of_lines (lines : List Line)
    (hhistory : net'.history = net.history ++ lines.map .wrote)
    (hemissions : net'.emissions = net.emissions) : Serves net (lines.map .wrote) net' where
  history_eq := hhistory
  numbers := .of_silent (emissions_wrote lines) hemissions
  announced := (filterMap_wrote (fun _ => rfl) lines).trans
    (filterMap_wrote (fun _ => rfl) lines).symm
  isSound := isSound_wrote lines
  copies_eq n := (copies_wrote n lines).trans (owed_wrote n lines).symm

theorem Still.exists_serves (h : net.Still net') : ∃ added, Serves net added net' := by
  obtain ⟨lines, hlines⟩ := h.exists_lines
  exact ⟨_, serves_of_lines lines hlines h.emissions_eq⟩

theorem serves_of_history_eq (hhistory : net'.history = net.history)
    (hemissions : net'.emissions = net.emissions) : Serves net [] net' :=
  serves_of_lines [] (hhistory.trans (List.append_nil _).symm) hemissions

theorem serves_act (htidy : net.Tidy) (hnet : net.Legible) {a : Act} (ha : a.Legible) :
    Serves net (net.happened [.act a]) (net.act a).1 where
  history_eq := (net.path_happened [.act a]).history_eq
  numbers := (net.path_happened [.act a]).numbers
  announced := (net.tells_happened [.act a]).announced_eq
  isSound := (net.path_happened [.act a]).isSound htidy
  copies_eq n :=
    (net.tells_happened [.act a]).copies_eq n
      (whole_happened hnet (List.forall_mem_singleton.2 ha))
      (net.path_happened [.act a]).numbers.nodup

theorem Effect.exists_serves {c : Command} (h : net.Effect c net') (htidy : net.Tidy)
    (hnet : net.Legible) (hc : c.Legible) : ∃ added, Serves net added net' := by
  cases h with
  | still hstill => exact hstill.exists_serves
  | introduced name m => exact ⟨_, serves_of_history_eq rfl rfl⟩
  | acted ha =>
      subst ha
      exact ⟨_, serves_act htidy hnet hc⟩
  | subscribed hstill hg s =>
      obtain ⟨added, hserves⟩ := hstill.exists_serves
      exact ⟨_, hserves.trans (serves_of_history_eq rfl rfl)⟩
  | unsubscribed g s => exact ⟨_, serves_of_history_eq rfl rfl⟩

/-- Whatever the commands, as long as all failures can be spelled, the history
holds announcements and deliveries that go together. -/
theorem IsReached.serves (h : net.IsReached Command.Legible) :
    Serves Network.empty net.history net := by
  induction h with
  | empty => exact serves_of_history_eq rfl rfl
  | @step net hnet c hc ih =>
      obtain ⟨added, hexecuted⟩ :=
        (net.effect_execute c).exists_serves hnet.tidy hnet.intact.legible hc
      obtain ⟨lines, hsettled⟩ := (still_settle (net.execute c).1).exists_serves
      have hall := (ih.trans hexecuted).trans hsettled
      have hhistory : (net.step c).1.history = net.history ++ added ++ lines := by
        rw [← hsettled.history_eq.trans (congrArg (· ++ lines) hexecuted.history_eq)]
        rfl
      rw [hhistory]
      exact hall

theorem Serves.exactlyOnce (h : Serves net added net') : ExactlyOnce added := by
  have hnumbered := h.numbers.nodup
  constructor
  case announced => exact h.announced
  case announces => exact fun g c r hcalled => h.isSound _ hcalled
  case numbered => exact hnumbered
  case delivered =>
    intro n g e audience hannounced
    rw [h.copies_eq, owed_eq hnumbered hannounced]
    exact ⟨h.isSound _ hannounced, rfl⟩
  case undelivered =>
    intro n hn
    rw [h.copies_eq, owed_eq_nil hn]

/-- What an act from outside returns is what its call has announced, and so it
is with the calls of listeners. -/
theorem unanswered_act (net : Network) (a : Act) :
    unanswered net.publishers.handle? [] (net.happened [.act a]) =
      some (madeCall? net.publishers.handle? (.act a, (net.act a).2)).toList := by
  have hanswers := (net.tells_happened [.act a]).unanswered_eq []
  rw [Episode.made, List.append_nil] at hanswers
  refine hanswers.trans (congrArg some ?_)
  change ([(Move.act a, (net.act a).2)].filterMap (madeCall? net.publishers.handle?)).reverse = _
  rw [List.filterMap_cons, List.filterMap_nil]
  cases madeCall? net.publishers.handle? (.act a, (net.act a).2) <;> rfl

/-- Whatever listeners do while an act is performed, if all that they may raise can
be spelled, the event of each committed call is delivered exactly once to everyone
who subscribes when it is announced, in the order of their subscriptions, and to
nobody else; the roll goes on to follow the acts; each call returns to whoever made
it what it has announced; and if others fail, or nobody does, nothing else
changes. -/
theorem events_delivered_exactly_once (hnet : net.IsReached Command.Legible) {a : Act}
    (ha : a.Legible) :
    ExactlyOnce (net.act a).1.history ∧
      (net.act a).1.history = net.history ++ net.happened [.act a] ∧
      (∀ before n g e audience behind,
        net.happened [.act a] = before ++ .announced n g e audience :: behind →
          audience = (net.roll.replay net.publishers.handle? before).audience g) ∧
      (net.act a).1.roll =
        (net.roll.replay net.publishers.handle? (net.happened [.act a])).after
          net.publishers.handle? a ∧
      (unanswered net.publishers.handle? [] (net.happened [.act a]) =
          some (madeCall? net.publishers.handle? (.act a, (net.act a).2)).toList ∧
        (net.act a).2.escaped? = none ∧
        ∀ listener a' answer, .acted listener a' answer ∈ net.happened [.act a] →
          answer.escaped? = none) ∧
      ∀ (net' : Network) (a' : Act), net'.unfailing = net.unfailing →
        a'.unfailing = a.unfailing →
          (net'.act a').1.unfailing = (net.act a).1.unfailing ∧
            (net'.act a').2 = (net.act a).2 := by
  have hact := serves_act hnet.tidy hnet.intact.legible ha
  have hall := hnet.serves.trans hact
  obtain ⟨hmade, hacted⟩ := (net.tells_happened [.act a]).escaped_eq_nil
    (whole_happened hnet.intact.legible (List.forall_mem_singleton.2 ha))
  have hescaped : (net.act a).2.escaped? = none := List.filterMap_eq_nil_iff.1 hmade
    (.act a, (net.act a).2) List.mem_cons_self
  refine ⟨?_, hact.history_eq, ?_, roll_act hnet.tidy a,
    ⟨unanswered_act net a, hescaped, hacted⟩, ?_⟩
  · rw [hact.history_eq]
    exact hall.exactlyOnce
  · intro before n g e audience behind hsplit
    have hadmits := admits_act hnet.tidy a
    rw [hsplit] at hadmits
    exact hadmits.audience_eq
  · exact fun _ _ hsame ha => act_of_unfailing_eq hsame ha

end Network

/-! A clerk of the two validators' manager strikes out the scribe behind it, lets
an auditor in and closes the epoch, all while it hears of the first claim. -/

def Plan.interrupting (failure : Option Raised) : Plan :=
  .times 1 [.unwatch "scribe", .watch "court" "auditor" (.always none), .call "court" .closing]
    failure (.always failure)

namespace Network

def attended (failure : Option Raised) : Network :=
  (duo.watch "court" "clerk" (.interrupting failure)).watch "court" "scribe" (.always none)

theorem isReached_duo : duo.IsReached Command.Legible := by
  have hestablished : (Network.empty.step (.establish "court" .duo)).1 = duo := by
    rw [step, execute, Manager.ofSetup_duo]
    rfl
  exact hestablished ▸ .step .empty (c := .establish "court" .duo) trivial

theorem isReached_attended : (attended none).IsReached Command.Legible :=
  (isReached_duo.watch (by decide)).watch (by decide)

theorem unfailing_attended (message : String) :
    (attended (some (.error message))).unfailing = (attended none).unfailing := by
  rw [attended, attended, unfailing_watch, unfailing_watch, unfailing_watch, unfailing_watch]
  rfl

/-- The scribe still hears of the claim and the auditor only of the closing, and
if the clerk fails both times, the claim returns what it returns otherwise. -/
theorem events_delivered_exactly_once_interruption :
    (attended none).IsReached Command.Legible ∧
      (copies 0 ((attended none).act (.call "court" .opening)).1.history).map (fun c => c.2.2) =
        [.listener "clerk", .listener "scribe"] ∧
      (copies 1 ((attended none).act (.call "court" .opening)).1.history).map (fun c => c.2.2) =
        [.listener "clerk", .listener "auditor"] ∧
      ((attended (some (.error "late"))).act (.call "court" .opening)).2 =
        ((attended none).act (.call "court" .opening)).2 := by
  obtain ⟨-, -, -, -, -, hfailures⟩ :=
    events_delivered_exactly_once isReached_attended (a := .call "court" .opening) (by decide)
  have hfailed := (hfailures _ _ (unfailing_attended "late") rfl).2
  exact ⟨isReached_attended, by decide +kernel, by decide +kernel, hfailed⟩

end Network

end EpochClaims
