import EpochClaims.Config.Environment
import EpochClaims.EpochHash
import EpochClaims.Index.Indexer
import EpochClaims.Manager.Call
import EpochClaims.Text.Shorten
import EpochClaims.Walkthrough.Style

/-!
# The walkthrough

The walkthrough follows one epoch from its first claim to its end: a claim, a
conflicting one, the dispute over them, consensus and the next epoch. The
manager is configured by the environment, with defaults for the orchestrator
and the validators; three validators are needed and more may be there. It is a
list of lines and, if it had to stop early, the report of why.
-/

namespace EpochClaims

namespace Walkthrough

/-- A part of the walkthrough, which writes lines and may have to stop. -/
abbrev Walk := ExceptT Report (StateM (List String))

/-- Writes a line. -/
def say (line : String) : Walk Unit :=
  modify fun lines => lines ++ [line]

/-- Goes on with a value or stops with the report of a fault. -/
def need {α φ : Type} (report : φ → Report) : Except φ α → Walk α
  | .ok a => return a
  | .error fault => throw (report fault)

/-- The orchestrator if the environment names none. -/
def defaultOrchestrator : String := "0x00000000000000000000000000000000000000f0"

/-- The validators if the environment names none. -/
def defaultValidators : List String :=
  ["0x00000000000000000000000000000000000000a1", "0x00000000000000000000000000000000000000b2",
    "0x00000000000000000000000000000000000000c3"]

/-- The environment with the defaults filled in. -/
def withDefaults (env : Config.Environment) : Config.Environment :=
  ⟨some (env.orchestrator.getD (.text defaultOrchestrator)),
    some (env.validators.getD (String.intercalate "," defaultValidators)),
    env.unknownLoserPolicy⟩

/-- A number below sixteen as a hash. -/
def hash (n : Nat) : Argument :=
  .text (String.ofList (Hex.write (Hex.padLeft 64 [Fin.ofNat 16 n])))

/-- The shortened members of a list in a row. -/
def row : Argument → String
  | .list items =>
    String.intercalate " · "
      (Document.spelledMembers (items.map (Document.shorten .missing)))
  | _ => ""

/-- The claims and the validators of an outcome, a text for each. -/
def bullets (o : Outcome) : List String :=
  ["claims " ++ row o.claims, "validators " ++ row o.validators]

/-- Writes an outcome. -/
def sayOutcome (label : String) (v : Verdict) : Walk Unit := do
  say (Style.info label v.result.text)
  (bullets v.outcome).forM fun text => say (Style.bullet text)

/-- A manager with the indexer that follows it. -/
structure Scene where
  manager : Manager
  indexer : Indexer

/-- Performs a call and lets the indexer ingest its event. -/
def Scene.perform (scene : Scene) (c : Call) : Walk (Scene × Reply) := do
  let (manager, reply) ← need Refusal.report (scene.manager.perform c)
  return (⟨manager, scene.indexer.ingest reply.event⟩, reply)

/-- Performs a call and writes its outcome. -/
def Scene.present (scene : Scene) (label : String) (c : Call) : Walk Scene := do
  let (scene, reply) ← scene.perform c
  match reply with
  | .claimed v => sayOutcome label v
  | .judged v => sayOutcome label v
  | .closed _ => pure ()
  return scene

/-- How a document of a cache reads. -/
def spelled : Option Document → String
  | some (.text s) => s
  | _ => "null"

/-- The end of an epoch and what is known of it afterwards. -/
def rollOver (scene : Scene) (account : Argument) : Walk Unit := do
  let (scene, reply) ← scene.perform (.advance account)
  if let .closed claim := reply then
    say (Style.success ("Epoch finalized with " ++ Claim.textOf claim))
  let (indexer, cache, _) := scene.indexer.settle (Cache.empty [])
  if let some raised := indexer.flush.2 then throw raised.report
  say (Style.info "Next Epoch" indexer.view.epoch.spelled)
  let first := Argument.number (Binary64.ofInt 0)
  let cached ← need Raised.report (cache.get first (.text Indexer.finalizedClaimName))
  say (Style.info "Cached Claim (epoch 0)" (spelled cached))
  indexer.view.finalized.forM fun f =>
    say (Style.bullet ("Epoch " ++ f.epoch.spelled ++ " · " ++ f.claim.spelled))
  say ""

/-- The epoch of three validators, the second of whom claims what is not so. -/
def epoch (c : Config) (alice bob carol : Address) : Walk Unit := do
  let manager ← need Manager.SetupFault.report (Manager.ofConfig c)
  let scene : Scene := ⟨manager, Indexer.start (.number (Binary64.ofInt 0)) true⟩
  let account := Argument.text c.orchestrator.text
  let honest ← need EpochHashes.Fault.report (EpochHashes.claimText ⟨hash 1, hash 2, hash 3⟩)
  let dishonest ← need EpochHashes.Fault.report (EpochHashes.claimText ⟨hash 1, hash 2, hash 4⟩)
  say (Style.info "Honest Claim" honest)
  say (Style.info "Dishonest Claim" dishonest)
  say (Style.chapter "Claims")
  let scene ← scene.present "First claim" (.submit ⟨account, alice.text, .text honest⟩)
  let scene ← scene.present "Conflicting claim" (.submit ⟨account, bob.text, .text dishonest⟩)
  say (Style.chapter "Dispute")
  let scene ← scene.present "Dispute resolved"
    (.dispute ⟨account, alice.text, bob.text, .text honest⟩)
  say (Style.info "Goal Mask" scene.manager.state.goal.text)
  say (Style.info "Agreement Mask" scene.manager.state.agreement.text)
  let scene ← scene.present "Last claim" (.submit ⟨account, carol.text, .text honest⟩)
  say (Style.chapter "Epoch Rollover")
  rollOver scene account

/-- The whole walkthrough. -/
def story (env : Config.Environment) : Walk Unit := do
  say (Style.heading "🚀 Initializing validator manager...")
  let c ← need Config.reportIssues (Config.load (withDefaults env))
  say (Style.info "Orchestrator" c.orchestrator.text)
  say (Style.info "Validators" (toString c.validators.length))
  say (Style.info "Unknown Loser Policy" c.unknownLoserPolicy.text)
  match c.validators with
  | alice :: bob :: carol :: _ => epoch c alice bob carol
  | _ => say (Style.warning "This walkthrough needs at least three validators")

/-- The lines of the walkthrough, and the report of why it stopped early if it
did. -/
def run (env : Config.Environment) : List String × Option Report :=
  match (story env).run [] with
  | (.ok (), lines) => (lines, none)
  | (.error report, lines) => (lines, some report)

/-- The lines and the exit code of the walkthrough as a program. A report is a
line of its own. -/
def transcript (env : Config.Environment) : List String × UInt32 :=
  match run env with
  | (lines, none) => (lines, 0)
  | (lines, some report) => (lines ++ [Style.failure report.message], 1)

end Walkthrough

end EpochClaims
