import DesignGraph.Config.Load
import DesignGraph.Graph.Stages
import DesignGraph.Proofs.Slots
import DesignGraph.Proofs.History
import DesignGraph.Proofs.Later
import DesignGraph.Proofs.Alignment
import DesignGraph.Proofs.Registry
import DesignGraph.Proofs.Ownership
import DesignGraph.Proofs.Origins
import DesignGraph.Proofs.Ledger
import DesignGraph.Proofs.Identity
import DesignGraph.Proofs.Membership
import DesignGraph.Proofs.Collections
import DesignGraph.Proofs.Admission
import DesignGraph.Proofs.Generative
import DesignGraph.Proofs.Stages
import DesignGraph.Proofs.Frame
import DesignGraph.Proofs.Teardown
import DesignGraph.Proofs.Likeness
import DesignGraph.Proofs.Reports
import DesignGraph.Proofs.Sharing
import DesignGraph.Proofs.Permanence
import DesignGraph.Proofs.Fields
import DesignGraph.Proofs.Omissions
import DesignGraph.Proofs.Refusals
import DesignGraph.Proofs.Batches
import DesignGraph.Proofs.Faults
import DesignGraph.Proofs.Validation
import DesignGraph.Proofs.Lines
import DesignGraph.Proofs.Writing
import DesignGraph.Proofs.Delimiters
import DesignGraph.Proofs.Naming
import DesignGraph.Proofs.Numbering
import DesignGraph.Proofs.Journal
import DesignGraph.Proofs.Summary
import DesignGraph.Proofs.Interning
import DesignGraph.Proofs.Printing
import DesignGraph.Proofs.Lifetimes
import DesignGraph.Proofs.Protection
import DesignGraph.Text.Interner
import DesignGraph.Proofs.Drafts
import DesignGraph.Proofs.Decoding
