import SecretWeb.Algebra.Interpolation
import SecretWeb.Shamir.Reconstruction
import SecretWeb.Shamir.Admission
import SecretWeb.Shamir.Split
import SecretWeb.Shamir.Quorum
import SecretWeb.Shamir.Secrecy
import SecretWeb.Client.Collect
import SecretWeb.Client.Asking
import SecretWeb.Client.Availability
import SecretWeb.Client.Forgery
import SecretWeb.Server.Routes
import SecretWeb.Server.Durability
import SecretWeb.Server.Integrity
import SecretWeb.Client.StoreSecret
import SecretWeb.Network.Exchange
import SecretWeb.Setup.OwnHost
import SecretWeb.Client.SecretNames
import SecretWeb.CryptoFile
import SecretWeb.Server.Boot
import SecretWeb.Setup.Reruns
import SecretWeb.Client.Gathering
import SecretWeb.Server.Copies
import SecretWeb.Shamir.Submissions
import SecretWeb.Server.Isolation
import SecretWeb.Shamir.Records
import SecretWeb.Setup.Publication
import SecretWeb.Client.Rounds
import SecretWeb.Python.JsonText
import SecretWeb.Network.Publishing
import SecretWeb.Storage.Authenticity
import SecretWeb.Storage.AtomicWrite
import SecretWeb.Server.Recovery
import SecretWeb.Setup.ConfigIni
import SecretWeb.Setup.Key1Record
import SecretWeb.Initiator.Handoff
import SecretWeb.Network.World
import SecretWeb.Network.Progress
import SecretWeb.Network.RoundTrip
import SecretWeb.Shamir.Readiness
import SecretWeb.Shamir.Redealing
import SecretWeb.Storage.Mirror
import SecretWeb.Server.FailedBoot
import SecretWeb.Server.Bodies
import SecretWeb.Setup.TypedHosts
import SecretWeb.Initiator.StructuralFaults
import SecretWeb.Initiator.Framing
import SecretWeb.Shamir.Residues
import SecretWeb.Initiator.Stopping
import SecretWeb.Setup.Archives
import SecretWeb.Mesh.Barrier
import SecretWeb.Mesh.Bootstrapping
import SecretWeb.Machine.Percolation
import SecretWeb.Mesh.Outages
import SecretWeb.Mesh.Comeback
import SecretWeb.Mesh.Restarts
import SecretWeb.Mesh.Secrecy
import SecretWeb.Server.Atomicity
