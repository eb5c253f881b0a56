import Courier.Main
import Courier.Network
import Courier.Proofs.Client.Grammar
import Courier.Proofs.Client.Listening
import Courier.Proofs.Duplex.Conclusion
import Courier.Proofs.Duplex.Rest
import Courier.Proofs.Node.Chronicle
import Courier.Proofs.Node.WireAccount
import Courier.Proofs.Policy.Enrollment
import Courier.Proofs.Routing.FiniteMaps
import Courier.Proofs.Routing.Mailboxes
import Courier.Proofs.Server.Custody
import Courier.Proofs.Server.Grammar
import Courier.Proofs.Server.Injection
import Courier.Proofs.Server.Isolation
import Courier.Proofs.Wire.Shortfall
import Courier.Proofs.Ledger.History
import Courier.Proofs.Ledger.Snapshots
import Courier.Proofs.Client.Resuming
import Courier.Proofs.Server.Fetching
import Courier.Proofs.Session.History
import Courier.Proofs.Node.Packing
import Courier.Proofs.Stream.Faithful
import Courier.Proofs.Server.Greeting
