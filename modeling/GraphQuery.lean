import GraphQuery.Main
import GraphQuery.Term.Document
import GraphQuery.Term.Moment
import GraphQuery.Proofs.Edit
import GraphQuery.Proofs.Dictionary
import GraphQuery.Proofs.OrderedText
import GraphQuery.Proofs.Sketch
import GraphQuery.Proofs.Plot
import GraphQuery.Proofs.Layout
import GraphQuery.Proofs.Realization
import GraphQuery.Proofs.Chaining
import GraphQuery.Proofs.Shape
import GraphQuery.Proofs.BuiltTree
import GraphQuery.Proofs.Gain
import GraphQuery.Proofs.UpdateFlag
import GraphQuery.Proofs.PathGrammar
import GraphQuery.Proofs.Conjuncts
import GraphQuery.Proofs.Rendering
import GraphQuery.Proofs.Legible
import GraphQuery.Proofs.NormalForm
import GraphQuery.Proofs.Preservation
import GraphQuery.Proofs.Rereading
import GraphQuery.Proofs.ScannedNodes
import GraphQuery.Proofs.SentUpdates
import GraphQuery.Proofs.CheckReport
import GraphQuery.Proofs.Continuation
import GraphQuery.Proofs.Combination
import GraphQuery.Proofs.Written
import GraphQuery.Proofs.Apart
import GraphQuery.Proofs.FlatChain
import GraphQuery.Proofs.EmptyConjunction
import GraphQuery.Proofs.MentionCount
import GraphQuery.Proofs.MentionBound
import GraphQuery.Proofs.OldObject
import GraphQuery.Proofs.Loading
import GraphQuery.Proofs.Flattening
import GraphQuery.Proofs.Attribution
import GraphQuery.Proofs.FieldTable
import GraphQuery.Proofs.BracketReport
import GraphQuery.Proofs.PatternRange
import GraphQuery.Proofs.Tokenizing
import GraphQuery.Proofs.Coercion
import GraphQuery.Proofs.References
import GraphQuery.Proofs.Hosting
import GraphQuery.Proofs.SentReplacement
import GraphQuery.Proofs.Copying
import GraphQuery.Proofs.Documents
import GraphQuery.Proofs.PathAnswer
import GraphQuery.Proofs.TemplateParts
import GraphQuery.Proofs.WireForm
