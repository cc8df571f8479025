import TableAlgebra.Main
import TableAlgebra.Proofs.Dump
import TableAlgebra.Proofs.GroupKey
import TableAlgebra.Proofs.JsonLines
import TableAlgebra.Proofs.Log
import TableAlgebra.Proofs.Query.AggregateChain
import TableAlgebra.Proofs.Query.Annotation
import TableAlgebra.Proofs.Query.Builder
import TableAlgebra.Proofs.Query.CrossJoin
import TableAlgebra.Proofs.Query.DistinctRows
import TableAlgebra.Proofs.Query.Extremes
import TableAlgebra.Proofs.Query.FirstFailure
import TableAlgebra.Proofs.Query.FusedProjections
import TableAlgebra.Proofs.Query.Having
import TableAlgebra.Proofs.Query.HiddenState
import TableAlgebra.Proofs.Query.JoinFailure
import TableAlgebra.Proofs.Query.JoinKinds
import TableAlgebra.Proofs.Query.Members
import TableAlgebra.Proofs.Query.OrderBy
import TableAlgebra.Proofs.Query.Preserved
import TableAlgebra.Proofs.Query.QualifiedNames
import TableAlgebra.Proofs.Query.RollUp
import TableAlgebra.Proofs.Query.SortedGroups
import TableAlgebra.Proofs.Query.Sums
import TableAlgebra.Proofs.Query.UniformJoins
import TableAlgebra.Proofs.Value.MixedNumbers
import TableAlgebra.Proofs.Value.Preorder
import TableAlgebra.Proofs.Value.Readers
import TableAlgebra.Proofs.Writers
