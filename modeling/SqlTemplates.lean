import SqlTemplates.Json.Reader
import SqlTemplates.Meaning
import SqlTemplates.Session
import SqlTemplates.Store.Directory
import SqlTemplates.Store.Embedding
import SqlTemplates.Proofs.DepthLimit
import SqlTemplates.Proofs.Extraction
import SqlTemplates.Proofs.Noninterference
import SqlTemplates.Proofs.Scoping
import SqlTemplates.Proofs.DepthRange
import SqlTemplates.Proofs.Sections
import SqlTemplates.Proofs.Concatenation
import SqlTemplates.Proofs.WellFormed
import SqlTemplates.Proofs.Printed
import SqlTemplates.Proofs.Agreement
import SqlTemplates.Proofs.Failures
import SqlTemplates.Proofs.Snapshot
import SqlTemplates.Proofs.Requests
import SqlTemplates.Proofs.Pieces
import SqlTemplates.Proofs.Spacing
import SqlTemplates.Proofs.FaultPlace
import SqlTemplates.Proofs.RightSide
import SqlTemplates.Proofs.Collections
import SqlTemplates.Proofs.FirstFault
import SqlTemplates.Proofs.WalkOrder
import SqlTemplates.Proofs.Opening
import SqlTemplates.Proofs.Addressing
import SqlTemplates.Proofs.Escaping
import SqlTemplates.Proofs.Splicing
