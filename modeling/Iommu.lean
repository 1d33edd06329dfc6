import Iommu.Library.Transition
import Iommu.Library.Fifo
import Iommu.Library.Effect
import Iommu.Library.Logging
import Iommu.Library.ByteMemory
import Iommu.Library.MachineWord
import Iommu.Library.BitMasks
import Iommu.Library.Spans
import Iommu.Library.Tiling
import Iommu.Library.Laminar
import Iommu.Error
import Iommu.Backing
import Iommu.Addr
import Iommu.Addr.Arithmetic
import Iommu.Addr.IoPort
import Iommu.Pcie
import Iommu.BdfRangeSet
import Iommu.BdfRangeSet.Equality
import Iommu.BdfRangeSet.Collected
import Iommu.Queue.CommandQueueCore
import Iommu.Queue.SubmitThreads
import Iommu.Queue.SubmitInvariant
import Iommu.Queue.SubmitSafety
import Iommu.Queue.Delivery
import Iommu.Queue.BoundedSubmit
import Iommu.Queue.SubmitOutcome
import Iommu.Queue.SubmitRecovery
import Iommu.Queue.SubmitFrame
import Iommu.Queue.SequentialRuns
import Iommu.Vtd.Info
import Iommu.IoDomain
import Iommu.Paging.Entries
import Iommu.Paging.SecondLevel
import Iommu.Paging.AmdVi
import Iommu.Paging.LargeLeaves
import Iommu.Vtd.Entries
import Iommu.Vtd.EntryFields
import Iommu.Vtd.Descriptor
import Iommu.Vtd.Registers
import Iommu.Vtd.Tables
import Iommu.Vtd.EntryWrites
import Iommu.Vtd.TornEntries
import Iommu.Vtd.RangePlan
import Iommu.Vtd.Unit
import Iommu.Vtd.RangeOutcome
import Iommu.Vtd.RangeInvalidation
import Iommu.Vtd.RangeMinimality
import Iommu.Vtd.RangeCursor
import Iommu.Vtd.PageAgreement
import Iommu.Vtd.PromptHardware
import Iommu.Vtd.RangeEnd
import Iommu.Vtd.InterruptMessages
import Iommu.Vtd.ContextUpdate
import Iommu.Vtd.AddressWidths
import Iommu.Vtd.Machine
import Iommu.Vtd.Routing
import Iommu.Vtd.Reachable
import Iommu.Vtd.Replacement
import Iommu.Vtd.TableAtomicity
import Iommu.Library.Parsing
import Iommu.Library.Walking
import Iommu.Library.Arrays
import Iommu.Vtd.GlobalCommand
import Iommu.Vtd.TableRegisters
import Iommu.Vtd.TranslationEnable
import Iommu.Vtd.QueueErrors
import Iommu.Vtd.FaultPolling
import Iommu.Vtd.FaultStatus
import Iommu.Vtd.FaultRecords
import Iommu.Firmware.Table
import Iommu.Firmware.Framing
import Iommu.Dmar.Structures
import Iommu.Dmar.Scopes
import Iommu.Dmar.Totality
import Iommu.Dmar.Coverage
import Iommu.Dmar.Agreement
import Iommu.Dmar.ForeignScopes
import Iommu.Dmar.IncludeAll
import Iommu.Dmar.Failures
import Iommu.Dmar.ScopeEntries
import Iommu.Dmar.ScopeOrder
import Iommu.Dmar.Bridges
import Iommu.Ivrs.DeviceEntries
import Iommu.Ivrs.Blocks
import Iommu.Ivrs.Totality
import Iommu.Ivrs.Layout
import Iommu.Ivrs.Reading
import Iommu.Ivrs.RoundTrip
import Iommu.Ivrs.Windows
import Iommu.Ivrs.RawEntries
import Iommu.Ivrs.Pairing
import Iommu.Ivrs.Reserved
import Iommu.Iort.Nodes
import Iommu.Iort.NodeArrays
import Iommu.Iort.NodeReads
import Iommu.Iort.ArrayReads
import Iommu.Iort.Totality
import Iommu.Iort.Queries
import Iommu.Iort.Contents
import Iommu.Library.Trails
import Iommu.Iort.Translation
import Iommu.Iort.References
import Iommu.Iort.Coverage
import Iommu.Iort.Requesters
import Iommu.Iort.MappingOrder
import Iommu.Iort.IommuSearch
import Iommu.Library.Caching
import Iommu.Vtd.HardwareCaches
import Iommu.Vtd.ContextCache
import Iommu.Vtd.InterruptCache
import Iommu.Vtd.Iotlb
import Iommu.Library.Positional
import Iommu.Paging.Shapes
import Iommu.Library.RadixTree
import Iommu.Paging.Walk
import Iommu.Vtd.DmaTranslation
import Iommu.Dmar.Layout
import Iommu.Dmar.RoundTrip
import Iommu.Dmar.Queries
import Iommu.Iort.Answers
import Iommu.Vtd.InterruptDelivery
