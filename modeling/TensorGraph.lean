import TensorGraph.Compilation
import TensorGraph.Execution.Compile
import TensorGraph.Kernel.Elementwise
import TensorGraph.Method
import TensorGraph.Proofs.ChainFusion
import TensorGraph.Proofs.CheckedGraphs
import TensorGraph.Proofs.ConcatValues
import TensorGraph.Proofs.ConvolvedSizes
import TensorGraph.Proofs.CopiedCode
import TensorGraph.Proofs.DirectReads
import TensorGraph.Proofs.FoldingFailures
import TensorGraph.Proofs.JoinedShapes
import TensorGraph.Proofs.LibraryOutputs
import TensorGraph.Proofs.Listing
import TensorGraph.Proofs.MatchedAxes
import TensorGraph.Proofs.NamingSessions
import TensorGraph.Proofs.OutputNames
import TensorGraph.Proofs.PointwiseFusion
import TensorGraph.Proofs.ProductFusion
import TensorGraph.Proofs.PrunedUsers
import TensorGraph.Proofs.RecordedDependencies
import TensorGraph.Proofs.SharedNames
import TensorGraph.Proofs.SplitParts
import TensorGraph.Proofs.StoppedCompilers
import TensorGraph.Proofs.StrideTrials
import TensorGraph.Proofs.ViewBytes
import TensorGraph.Proofs.ViewedReads
import TensorGraph.Proofs.ViewedWrites
import TensorGraph.Proofs.WideAccess
import TensorGraph.Snapshot
import TensorGraph.Table
import TensorGraph.Toolkit
import TensorGraph.Tuning.BatchRegions
