import EpochClaims.Proofs.Network.Change

/-!
# How what happens nests

`Tells` is the grammar of histories. An act of a call tells the call, the lines
of its manager and, if the call is committed, the announcement and the delivery
of its event; a delivery goes through the audience unless it breaks off; and a
listener that hears an event tells its own acts in between, each followed by its
answer. `relates_act`
and `relates_moveAll` say that every act, and every row of moves from outside,
adds to the history what the grammar allows, by a `Path` of single changes.

Facts about the order of calls and deliveries are then inductions on `Tells`,
with one case for each rule. The first of them is that every call is answered
to its own caller with the result that it has in the history, and calls from
within a delivery before those around them: `Tells.unanswered_eq`. If no delivery
breaks off, the answer is this result and nothing else: `Tells.escaped?_eq_none`.
-/

namespace EpochClaims

/-- What is done to a network from outside: an act is performed, or the writes
of indexers are. -/
inductive Move where
  | act (a : Act)
  | settle

/-- A call that has been performed, with its manager. -/
abbrev MadeCall := Nat × CallResult

/-- The call that a move was, with its result, whatever escaped from its delivery. -/
def madeCall? (handle? : String → Option Nat) : Move × ActAnswer → Option MadeCall
  | (.act (.call name c), .called answer _) =>
    (handle? name).map fun g => (g, c, answer.map Prod.fst)
  | _ => none

/-- What a stretch of history is about. -/
inductive Episode where
  | act (a : Act) (answer : ActAnswer)
  | hearing (s : Subscriber)
  | delivering (emission manager : Nat) (e : Event) (audience : List Subscriber)
      (escaped : Option Raised)
  | moves (moves : List (Move × ActAnswer))

/-- The histories of an episode, given the handles of the managers. -/
inductive Tells (handle? : String → Option Nat) : Episode → List Happening → Prop
  | idle (a : Act) : Tells handle? (.act a .done) []
  | refused {name : String} {g : Nat} (hname : handle? name = some g) (c : Call) (e : Refusal)
      (m : Manager) (lines : List Line) :
      Tells handle? (.act (.call name c) (.called (.error e) m))
        (.called g c (.error e) :: lines.map .wrote)
  | committed {name : String} {g : Nat} (hname : handle? name = some g) (c : Call) {r : Reply}
      (m : Manager) (lines : List Line) {emission : Nat} {audience : List Subscriber}
      {escaped : Option Raised} {told : List Happening}
      (htold : Tells handle? (.delivering emission g r.event audience escaped) told) :
      Tells handle? (.act (.call name c) (.called (.ok (r, escaped)) m))
        (.called g c (.ok r) :: (lines.map .wrote ++
          .announced emission g r.event audience :: told))
  | nobody (emission g : Nat) (e : Event) : Tells handle? (.delivering emission g e [] none) []
  | delivered {emission g : Nat} {e : Event} {s : Subscriber} {audience : List Subscriber}
      {escaped : Option Raised} {own others : List Happening}
      (hown : Tells handle? (.hearing s) own)
      (hothers : Tells handle? (.delivering emission g e audience escaped) others) :
      Tells handle? (.delivering emission g e (s :: audience) escaped)
        (.delivered emission g e s :: (own ++ others))
  | brokenOff {emission g : Nat} {e : Event} {s : Subscriber} (audience : List Subscriber)
      (escaped : Raised) {own : List Happening} (hown : Tells handle? (.hearing s) own) :
      Tells handle? (.delivering emission g e (s :: audience) (some escaped))
        (.delivered emission g e s :: (own ++ [.brokenOff emission g s escaped]))
  | quiet (s : Subscriber) (lines : List Line) : Tells handle? (.hearing s) (lines.map .wrote)
  | reacted {name : String} {a : Act} {answer : ActAnswer} {own rest : List Happening}
      (hown : Tells handle? (.act a answer) own)
      (hrest : Tells handle? (.hearing (.listener name)) rest) :
      Tells handle? (.hearing (.listener name)) (own ++ .acted name a answer :: rest)
  | still : Tells handle? (.moves []) []
  | settled (lines : List Line) {done : List (Move × ActAnswer)} {rest : List Happening}
      (hrest : Tells handle? (.moves done) rest) :
      Tells handle? (.moves ((.settle, .done) :: done)) (lines.map .wrote ++ rest)
  | moved {a : Act} {answer : ActAnswer} {done : List (Move × ActAnswer)}
      {own rest : List Happening} (hown : Tells handle? (.act a answer) own)
      (hrest : Tells handle? (.moves done) rest) :
      Tells handle? (.moves ((.act a, answer) :: done)) (own ++ rest)

namespace Network

/-- Does one move. -/
def move (net : Network) : Move → Network × ActAnswer
  | .act a => net.act a
  | .settle => (net.settle, .done)

def moveAll (net : Network) : List Move → Network × List ActAnswer
  | [] => (net, [])
  | m :: moves =>
    let r := net.move m
    let rest := r.1.moveAll moves
    (rest.1, r.2 :: rest.2)

/-- What happens while moves are done. -/
def happened (net : Network) (moves : List Move) : List Happening :=
  (net.moveAll moves).1.history.drop net.history.length

/-- What is added to a history on the way to another network tells an episode. -/
def Relates (net : Network) (episode : Episode) (net' : Network) : Prop :=
  ∃ added, Tells net.publishers.handle? episode added ∧ Path net added net'

/-- A meaning of acts that keeps to the grammar. -/
def KeepsGrammar (inner : Network → Act → Network × ActAnswer) : Prop :=
  ∀ (net : Network) (a : Act), net.Relates (.act a (inner net a).2) (inner net a).1

variable {inner : Network → Act → Network × ActAnswer}

/-- The acts of a listener go in front of whatever it tells after them. -/
theorem exists_path_performAll (hinner : KeepsGrammar inner) (listener : String)
    (acts : List Act) :
    ∀ net : Network, ∃ added, Path net added (net.performAll inner listener acts) ∧
      ∀ rest, Tells net.publishers.handle? (.hearing (.listener listener)) rest →
        Tells net.publishers.handle? (.hearing (.listener listener)) (added ++ rest) := by
  induction acts with
  | nil => exact fun net => ⟨[], .refl net, fun rest hrest => hrest⟩
  | cons a acts ih =>
      intro net
      obtain ⟨own, hown, hpath⟩ := hinner net a
      have hacted := hpath.trans (Change.acted (inner net a).1 listener a (inner net a).2).path
      obtain ⟨more, hmore, htells⟩ := ih ((inner net a).1.note (.acted listener a (inner net a).2))
      -- What comes after the act starts in another network, with the same names.
      rw [hacted.handle?_eq] at htells
      refine ⟨own ++ [.acted listener a (inner net a).2] ++ more, hacted.trans hmore, ?_⟩
      intro rest hrest
      rw [List.append_assoc, List.append_assoc]
      exact .reacted hown (htells rest hrest)

/-- A failure leaves lines at most. -/
theorem exists_lines_fail (net : Network) (e : Event) (raised : Raised) :
    ∃ lines : List Line, (net.fail e raised).1 = net.write lines := by
  rw [fail]
  split
  · exact ⟨_, rfl⟩
  · exact ⟨[], by rw [write, List.map_nil, List.append_nil]⟩

theorem relates_react (hinner : KeepsGrammar inner) (net : Network) (listener : String)
    (e : Event) : net.Relates (.hearing (.listener listener)) (net.react inner listener e).1 := by
  rw [react]
  cases net.listeners.find? listener with
  | none => exact ⟨[], .quiet (.listener listener) [], .refl net⟩
  | some l =>
      have hplanned := (Change.planned net listener l.plan.next.2).path
      obtain ⟨added, hpath, htells⟩ := exists_path_performAll hinner listener
        l.plan.next.1.acts (net.plan listener l.plan.next.2)
      rw [hplanned.handle?_eq] at htells
      have hacts := hplanned.trans hpath
      dsimp only
      cases l.plan.next.1.failure with
      | none =>
          have htold := htells _ (.quiet _ [])
          rw [List.map_nil, List.append_nil] at htold
          exact ⟨added, htold, hacts⟩
      | some raised =>
          obtain ⟨lines, hlines⟩ := exists_lines_fail ((net.plan listener l.plan.next.2).performAll
            inner listener l.plan.next.1.acts) e raised
          refine ⟨_, htells _ (.quiet _ lines), ?_⟩
          have hfailed := hacts.trans (Change.wrote _ lines).path
          rw [← hlines] at hfailed
          exact hfailed

/-- A subscriber is noted before it hears the event. -/
theorem exists_path_receive (hinner : KeepsGrammar inner) (emission g : Nat) (e : Event)
    (net : Network) (s : Subscriber) :
    ∃ own, Tells net.publishers.handle? (.hearing s) own ∧
      Path net (.delivered emission g e s :: own) (receive inner emission g e net s).1 := by
  cases s with
  | listener name =>
      have hheard := (Change.heard net emission g e name).path
      obtain ⟨own, hown, hpath⟩ :=
        relates_react hinner (net.note (.delivered emission g e (.listener name))) name e
      exact ⟨own, hown, hheard.trans hpath⟩
  | indexer i t =>
      obtain ⟨lines, hchange⟩ := exists_change_ingest net emission g e i t
      exact ⟨lines.map .wrote, .quiet _ lines, hchange.path⟩
  | recorder k =>
      obtain ⟨lines, hchange⟩ := exists_change_keepLog net emission g e k
      exact ⟨lines.map .wrote, .quiet _ lines, hchange.path⟩

theorem relates_deliver (hinner : KeepsGrammar inner) (emission g : Nat) (e : Event)
    (audience : List Subscriber) :
    ∀ net : Network,
      net.Relates (.delivering emission g e audience (deliver inner emission g e net audience).2)
        (deliver inner emission g e net audience).1 := by
  induction audience with
  | nil => exact fun net => ⟨[], .nobody emission g e, .refl net⟩
  | cons s audience ih =>
      intro net
      obtain ⟨own, hown, hpath⟩ := exists_path_receive hinner emission g e net s
      rw [deliver]
      cases hreceived : receive inner emission g e net s with
      | mk after escaped =>
          rw [hreceived] at hpath
          cases escaped with
          | none =>
              dsimp only
              obtain ⟨others, hothers, hmore⟩ := ih after
              rw [hpath.handle?_eq] at hothers
              exact ⟨_, .delivered hown hothers, hpath.trans hmore⟩
          | some escaped =>
              dsimp only
              exact ⟨_, .brokenOff audience escaped hown,
                hpath.trans (Change.brokenOff after emission g s escaped).path⟩

theorem relates_call (hinner : KeepsGrammar inner) {net : Network} {name : String} {g : Nat}
    (hname : net.publishers.handle? name = some g) {m : Manager}
    (hmanager : net.manager? g = some m) (c : Call) (last : Manager) :
    net.Relates (.act (.call name c) (.called (net.call inner g m c).2 last))
      (net.call inner g m c).1 := by
  rw [call]
  cases hperform : m.perform c with
  | error e =>
      have hrefused := (Change.refused hmanager hperform).path
      exact ⟨_, .refused hname c e last (m.lines c),
        hrefused.trans (Change.wrote _ (m.lines c)).path⟩
  | ok r =>
      obtain ⟨m', r⟩ := r
      have hcommitted := (Change.committed hmanager hperform).path
      have hwrote := hcommitted.trans (Change.wrote _ (m.lines c)).path
      have hannounced := hwrote.trans (Change.announced _ g r.event).path
      obtain ⟨told, htold, hpath⟩ := relates_deliver hinner _ g r.event _ _
      rw [hannounced.handle?_eq] at htold
      refine ⟨_, .committed hname c last (m.lines c) htold, ?_⟩
      have hall := hannounced.trans hpath
      rw [List.append_assoc, List.append_assoc] at hall
      exact hall

theorem keepsGrammar_performWith (hinner : KeepsGrammar inner) :
    KeepsGrammar (performWith inner) := by
  intro net a
  have hidle : net.Relates (.act a .done) net := ⟨[], .idle a, .refl net⟩
  cases a with
  | watch manager listener plan =>
      exact ⟨[], .idle _, (Change.watched net manager listener plan).path⟩
  | unwatch listener => exact ⟨[], .idle _, (Change.unwatched net listener).path⟩
  | call name c =>
      rw [performWith]
      cases hname : net.publishers.handle? name with
      | none => exact hidle
      | some g =>
          cases hget : net.publishers.get? g with
          | none =>
              simp only [hget]
              exact hidle
          | some p =>
              simp only [hget]
              have hmanager : net.manager? g = some p.manager := by rw [manager?, hget]; rfl
              -- The answer holds the manager after the call, whichever that is.
              obtain ⟨added, _, hpath⟩ := relates_call hinner hname hmanager c p.manager
              obtain ⟨last, hlast, _⟩ := hpath.replays hmanager
              obtain ⟨p', hp', _⟩ := Option.map_eq_some_iff.1 hlast
              rw [answer, hp']
              exact relates_call hinner hname hmanager c p'.manager

theorem keepsGrammar_perform (levels : Nat) : KeepsGrammar (perform levels) := by
  induction levels with
  | zero => exact keepsGrammar_performWith fun net a => ⟨[], .idle a, .refl net⟩
  | succ levels ih => exact keepsGrammar_performWith ih

theorem relates_act (net : Network) (a : Act) :
    net.Relates (.act a (net.act a).2) (net.act a).1 :=
  keepsGrammar_perform _ net a

/-- Moves, with their answers, add to the history what the grammar allows. -/
theorem relates_moveAll (moves : List Move) :
    ∀ net : Network, net.Relates (.moves (moves.zip (net.moveAll moves).2))
      (net.moveAll moves).1 := by
  induction moves with
  | nil => exact fun net => ⟨[], .still, .refl net⟩
  | cons move moves ih =>
      intro net
      cases move with
      | act a =>
          obtain ⟨own, hown, hpath⟩ := net.relates_act a
          obtain ⟨rest, hrest, hmore⟩ := ih (net.act a).1
          rw [hpath.handle?_eq] at hrest
          exact ⟨own ++ rest, .moved hown hrest, hpath.trans hmore⟩
      | settle =>
          obtain ⟨lines, hlines⟩ := exists_lines_settle net
          have hpath := (Change.settled hlines).path
          obtain ⟨rest, hrest, hmore⟩ := ih net.settle
          rw [hpath.handle?_eq] at hrest
          exact ⟨_, .settled lines hrest, hpath.trans hmore⟩

theorem happened_eq {net : Network} {moves : List Move} {added : List Happening}
    (h : Path net added (net.moveAll moves).1) : net.happened moves = added := by
  rw [happened, h.history_eq, List.drop_left]

/-- What happens while moves are done leads along a path to where they lead. -/
theorem path_happened (net : Network) (moves : List Move) :
    Path net (net.happened moves) (net.moveAll moves).1 := by
  obtain ⟨added, -, hpath⟩ := net.relates_moveAll moves
  rwa [happened_eq hpath]

theorem tells_happened (net : Network) (moves : List Move) :
    Tells net.publishers.handle? (.moves (moves.zip (net.moveAll moves).2))
      (net.happened moves) := by
  obtain ⟨added, htells, hpath⟩ := net.relates_moveAll moves
  rwa [happened_eq hpath]

end Network

/-! ### Calls and their answers -/

namespace Happening

/-- The calls that are waiting for their answers after a history, the latest in
front; none if some answer is not that of the latest call. -/
def unanswered (handle? : String → Option Nat) :
    List MadeCall → List Happening → Option (List MadeCall)
  | waiting, [] => some waiting
  | waiting, called g c result :: history => unanswered handle? ((g, c, result) :: waiting) history
  | waiting, acted _ (.call name c) (.called answer _) :: history =>
    match waiting with
    | [] => none
    | (g, made) :: waiting =>
      if handle? name = some g ∧ made = (c, answer.map Prod.fst) then
        unanswered handle? waiting history
      else none
  | waiting, _ :: history => unanswered handle? waiting history

end Happening

/-- The calls that an episode itself makes, without those from within a
delivery. -/
def Episode.made (handle? : String → Option Nat) : Episode → List MadeCall
  | act a answer => (madeCall? handle? (.act a, answer)).toList
  | moves done => done.filterMap (madeCall? handle?)
  | _ => []

theorem Episode.made_moves_cons (handle? : String → Option Nat) (a : Act) (answer : ActAnswer)
    (done : List (Move × ActAnswer)) :
    (moves ((.act a, answer) :: done)).made handle? =
      (act a answer).made handle? ++ (moves done).made handle? := by
  rw [made, made, made, List.filterMap_cons]
  cases madeCall? handle? (.act a, answer) <;> rfl

namespace Happening

variable (handle? : String → Option Nat)

theorem unanswered_append (history more : List Happening) :
    ∀ waiting : List MadeCall, unanswered handle? waiting (history ++ more) =
      (unanswered handle? waiting history).bind fun left => unanswered handle? left more := by
  induction history with
  | nil => exact fun _ => rfl
  | cons h history ih =>
      intro waiting
      cases h with
      | called g c result => exact ih _
      | wrote line => exact ih _
      | announced n g e audience => exact ih _
      | delivered n g e s => exact ih _
      | brokenOff n g s escaped => exact ih _
      | acted listener a answer =>
          cases a with
          | watch _ _ _ => exact ih _
          | unwatch _ => exact ih _
          | call name c =>
              cases answer with
              | done => exact ih _
              | called result m =>
                  cases waiting with
                  | nil => rfl
                  | cons made waiting =>
                      simp only [List.cons_append, unanswered]
                      split
                      · exact ih _
                      · rfl

theorem unanswered_wrote (waiting : List MadeCall) (lines : List Line) :
    unanswered handle? waiting (lines.map wrote) = some waiting := by
  induction lines with
  | nil => rfl
  | cons line lines ih => exact ih

end Happening

/-- An answer to a call comes from the manager of the name that was called. -/
theorem Tells.exists_handle {handle? : String → Option Nat} {name : String} {c : Call}
    {answer : CallAnswer} {m : Manager} {history : List Happening}
    (h : Tells handle? (.act (.call name c) (.called answer m)) history) :
    ∃ g, handle? name = some g := by
  cases h with
  | refused hname _ _ _ _ => exact ⟨_, hname⟩
  | committed hname _ _ _ _ => exact ⟨_, hname⟩

open Happening in
/-- Every call from within a delivery is answered, before those around it, with
its own result. What an episode leaves waiting are the calls from outside. -/
theorem Tells.unanswered_eq {handle? : String → Option Nat} {episode : Episode}
    {history : List Happening} (h : Tells handle? episode history) :
    ∀ waiting : List MadeCall, unanswered handle? waiting history =
      some ((episode.made handle?).reverse ++ waiting) := by
  induction h with
  | idle a => cases a <;> exact fun _ => rfl
  | refused hname c e m lines =>
      intro waiting
      rw [unanswered, unanswered_wrote, Episode.made, madeCall?, hname]
      rfl
  | committed hname c m lines _ ih =>
      intro waiting
      rw [unanswered, unanswered_append, unanswered_wrote, Episode.made, madeCall?, hname]
      exact ih _
  | nobody _ _ _ => exact fun _ => rfl
  | @delivered _ _ _ _ _ _ own others _ _ ihown ihothers =>
      intro waiting
      change unanswered handle? waiting (own ++ others) = _
      rw [unanswered_append, ihown]
      exact ihothers waiting
  | @brokenOff _ _ _ _ _ _ own _ ihown =>
      intro waiting
      change unanswered handle? waiting (own ++ _) = _
      rw [unanswered_append, ihown]
      rfl
  | quiet _ lines => exact fun waiting => unanswered_wrote handle? waiting lines
  | @reacted name a answer own rest hown _ ihown ihrest =>
      intro waiting
      rw [unanswered_append, ihown, Option.bind_some]
      cases a with
      | watch _ _ _ => exact ihrest waiting
      | unwatch _ => exact ihrest waiting
      | call callee c =>
          cases answer with
          | done => exact ihrest waiting
          | called result m =>
              obtain ⟨g, hg⟩ := hown.exists_handle
              simp only [Episode.made, madeCall?, hg, Option.map_some, Option.toList_some,
                List.reverse_singleton, List.singleton_append, unanswered, and_self, if_true]
              exact ihrest waiting
  | still => exact fun _ => rfl
  | settled lines _ ih =>
      intro waiting
      rw [unanswered_append, unanswered_wrote]
      exact ih waiting
  | @moved a answer done own rest _ _ ihown ihrest =>
      intro waiting
      rw [unanswered_append, ihown, Option.bind_some, ihrest, Episode.made_moves_cons,
        List.reverse_append, List.append_assoc]

/-! ### What escapes -/

/-- What escapes from the acts or the delivery that an episode is. -/
def Episode.escaped : Episode → List Raised
  | act _ answer => answer.escaped?.toList
  | delivering _ _ _ _ escaped => escaped.toList
  | moves done => done.filterMap fun x => x.2.escaped?
  | hearing _ => []

/-- If no delivery breaks off, nothing escapes from any act. -/
theorem Tells.escaped_eq_nil {handle? : String → Option Nat} {episode : Episode}
    {history : List Happening} (h : Tells handle? episode history)
    (hwhole : Happening.Whole history) :
    episode.escaped = [] ∧
      ∀ listener a answer, .acted listener a answer ∈ history → answer.escaped? = none := by
  induction h with
  | idle _ => exact ⟨rfl, by simp⟩
  | refused _ _ _ _ lines => exact ⟨rfl, by simp⟩
  | committed _ _ _ lines _ ih =>
      obtain ⟨hescaped, hacted⟩ := ih (hwhole.of_subset fun x hx => by simp [hx])
      exact ⟨hescaped, by simpa using hacted⟩
  | nobody _ _ _ => exact ⟨rfl, by simp⟩
  | delivered _ _ ihown ihothers =>
      obtain ⟨-, hown⟩ := ihown (hwhole.of_subset fun x hx => by simp [hx])
      obtain ⟨hescaped, hothers⟩ := ihothers (hwhole.of_subset fun x hx => by simp [hx])
      refine ⟨hescaped, fun listener a answer hmem => ?_⟩
      have hboth := List.mem_append.1 ((List.mem_cons.1 hmem).resolve_left nofun)
      exact hboth.elim (hown listener a answer) (hothers listener a answer)
  | @brokenOff n g e s audience escaped own _ _ =>
      exact absurd (List.mem_cons_of_mem _ (List.mem_append_right own List.mem_cons_self))
        (hwhole n g s escaped)
  | quiet _ lines => exact ⟨rfl, by simp⟩
  | @reacted name a answer own rest _ _ ihown ihrest =>
      obtain ⟨hescaped, hown⟩ := ihown (hwhole.of_subset fun x hx => by simp [hx])
      obtain ⟨-, hrest⟩ := ihrest (hwhole.of_subset fun x hx => by simp [hx])
      refine ⟨rfl, fun listener a' answer' hmem => ?_⟩
      rcases List.mem_append.1 hmem with hmem | hmem
      · exact hown listener a' answer' hmem
      · rcases List.mem_cons.1 hmem with heq | hmem
        · obtain ⟨-, -, rfl⟩ := Happening.acted.inj heq
          exact Option.toList_eq_nil_iff.1 hescaped
        · exact hrest listener a' answer' hmem
  | still => exact ⟨rfl, by simp⟩
  | settled lines _ ih =>
      obtain ⟨hescaped, hacted⟩ := ih (hwhole.of_subset fun x hx => by simp [hx])
      exact ⟨hescaped, by simpa using hacted⟩
  | @moved a answer done own rest _ _ ihown ihrest =>
      obtain ⟨hanswer, hown⟩ := ihown (hwhole.of_subset (List.subset_append_left ..))
      obtain ⟨hescaped, hrest⟩ := ihrest (hwhole.of_subset (List.subset_append_right ..))
      refine ⟨?_, fun listener a' answer' hmem => ?_⟩
      · rw [Episode.escaped, List.filterMap_cons, Option.toList_eq_nil_iff.1 hanswer]
        exact hescaped
      · exact (List.mem_append.1 hmem).elim (hown listener a' answer') (hrest listener a' answer')

end EpochClaims
