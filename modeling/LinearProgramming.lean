import LinearProgramming.Main
import LinearProgramming.Proofs.Bounds.Safety
import LinearProgramming.Proofs.EnteringChoice
import LinearProgramming.Proofs.IntegralData
import LinearProgramming.Proofs.LeavingChoice
import LinearProgramming.Proofs.NumberText
import LinearProgramming.Proofs.ObjectiveRise
import LinearProgramming.Proofs.RawData
import LinearProgramming.Proofs.RevisedTrace
import LinearProgramming.Proofs.RoundedIncumbent
import LinearProgramming.Proofs.RunTrace
import LinearProgramming.Proofs.SearchLimit
import LinearProgramming.Proofs.SearchTermination
import LinearProgramming.Proofs.SearchTreeShape
import LinearProgramming.Proofs.Sensitivity.Admission
import LinearProgramming.Proofs.Sensitivity.NegatedRow
import LinearProgramming.Proofs.Sensitivity.OppositeAnalysis
import LinearProgramming.Proofs.Sensitivity.RightHandSides
import LinearProgramming.Proofs.Sensitivity.SharedForm
import LinearProgramming.Proofs.StandardForm.Correspondence
import LinearProgramming.Proofs.StandingIncumbent
import LinearProgramming.Scalar.Exact
