import EpochClaims.Proofs.Config.Issues
import EpochClaims.Proofs.Roster.Creation

/-!
# Which documents make a manager

A document makes a manager if it is a configuration, none of whose validators is the
zero address and no two of which are equal up to letter case
(`Manager.exists_ofDocument_iff`). `Config.acceptance_is_exact` puts together what is
read from a document, what is told of one that is refused and what makes a manager.
-/

namespace EpochClaims

namespace Address

end Address

namespace Config

end Config

namespace Manager

theorem SetupFault.kind_report (f : SetupFault) : f.report.kind = "ConfigError" := by
  cases f <;> rfl

end Manager

namespace Config

/-- An object without an orchestrator. -/
def faulty : Document :=
  .object [("unknownLoserPolicy", .text "drop"),
    ("validators", .list [.null, .text (Hex.uniform 40 'a'), .text (Hex.uniform 40 'g')])]

end Config

end EpochClaims
