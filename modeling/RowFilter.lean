import RowFilter.CommandLine.Program
import RowFilter.Main
import RowFilter.Proofs.Acceptance
import RowFilter.Proofs.RoundTrip
import RowFilter.Proofs.Tiling
import RowFilter.Proofs.TypeSoundness
import RowFilter.Session.Step
import RowFilter.Proofs.ShortCircuit
import RowFilter.Proofs.Matches
import RowFilter.Proofs.Complement
import RowFilter.Proofs.Requests
import RowFilter.Proofs.PageWalk
import RowFilter.Proofs.InferredTypes
import RowFilter.Proofs.ErrorKinds
import RowFilter.Proofs.RuntimeErrors
import RowFilter.Proofs.CompileOutcome
import RowFilter.Proofs.Isolation
import RowFilter.Proofs.Counting
import RowFilter.Proofs.QuotedLiterals
import RowFilter.Proofs.TableShape
import RowFilter.Proofs.PageOutcome
import RowFilter.Proofs.CompiledShape
import RowFilter.Proofs.Composition
import RowFilter.Proofs.CompoundTests
import RowFilter.Proofs.ListLiterals
import RowFilter.Proofs.ElementQuotes
import RowFilter.Proofs.NumericOrder
import RowFilter.Proofs.TextTests
import RowFilter.Proofs.NamedLists
import RowFilter.Proofs.ColumnKinds
import RowFilter.Proofs.Reloading
import RowFilter.Proofs.ClashWarnings
import RowFilter.Proofs.Flattening
import RowFilter.Proofs.TokenCounts
import RowFilter.Proofs.IntegerLiterals
import RowFilter.Proofs.TemporalTests
import RowFilter.Proofs.Keywords
import RowFilter.Proofs.RetypedLayouts
import RowFilter.Proofs.RetypedQueries
import RowFilter.Proofs.MarkerScans
import RowFilter.Proofs.CountFaults
import RowFilter.Proofs.ErrorOffsets
