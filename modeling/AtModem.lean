import AtModem.Main
import AtModem.Proofs.Download
import AtModem.Proofs.Lookahead
import AtModem.Proofs.Matching
import AtModem.Proofs.Transparency
import AtModem.Proofs.Handlers
import AtModem.Proofs.Facades
import AtModem.Proofs.FarEnd
import AtModem.Proofs.Parameters
import AtModem.Proofs.Upload
import AtModem.Link.CertStore
import AtModem.Proofs.Calm
import AtModem.Proofs.CertStore
import AtModem.Proofs.Listing
import AtModem.Proofs.Overwrite
import AtModem.Proofs.Rejection
import AtModem.Proofs.Resumption
import AtModem.Proofs.Notifications
import AtModem.Proofs.Written
import AtModem.Proofs.CommandLine
import AtModem.Proofs.Quoting
import AtModem.Proofs.Injection
import AtModem.Proofs.Delivery
import AtModem.Proofs.Duration
import AtModem.Proofs.Teardown
import AtModem.Proofs.Consumption
import AtModem.Proofs.Correlation
import AtModem.Proofs.Recorder
import AtModem.Proofs.Binding
import AtModem.Proofs.Acknowledgement
import AtModem.Proofs.Registrations
import AtModem.Proofs.Verbatim
import AtModem.Proofs.Keeper
import AtModem.Proofs.Provisioning
import AtModem.Proofs.Pace
import AtModem.Proofs.Timing
import AtModem.Proofs.Punctuality
import AtModem.Proofs.Passthrough
import AtModem.Proofs.SlotLookup
import AtModem.Proofs.ConnectionLookup
import AtModem.Proofs.Truncation
import AtModem.Proofs.Integer
import AtModem.Proofs.Reception
import AtModem.Proofs.Reassembly
import AtModem.Proofs.Overflow
import AtModem.Proofs.Search
import AtModem.Proofs.Capture
import AtModem.Proofs.Headers
import AtModem.Proofs.Shortfall
import AtModem.Proofs.LineFraming
