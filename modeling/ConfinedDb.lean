import ConfinedDb.Proofs.Confinement.Leaked
import ConfinedDb.Proofs.Confinement.Ownership
import ConfinedDb.Proofs.Disposal.ClosedOnce
import ConfinedDb.Proofs.Disposal.Leak
import ConfinedDb.Proofs.Disposal.Prepared
import ConfinedDb.Proofs.Flags.Pristine
import ConfinedDb.Proofs.Native.Reading
import ConfinedDb.Proofs.Opening.Conflated
import ConfinedDb.Proofs.Options.Grammar
import ConfinedDb.Proofs.Registry.History
import ConfinedDb.Proofs.Reports.Breach
import ConfinedDb.Proofs.Reuse.Desk
import ConfinedDb.Proofs.Solo.Connect
import ConfinedDb.Proofs.Solo.Drain
import ConfinedDb.Proofs.Solo.Failures
import ConfinedDb.Proofs.Solo.Release
import ConfinedDb.Scenario.Run
import ConfinedDb.Text.Percent.RoundTrip
import ConfinedDb.Text.Utf8.RoundTrip
