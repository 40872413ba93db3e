import ComponentViews.Files.Tree
import ComponentViews.Graph.Builder
import ComponentViews.Main
import ComponentViews.Proofs.Assembly.NodeProperties
import ComponentViews.Proofs.Classification.Acyclic
import ComponentViews.Proofs.Classification.StyleNames
import ComponentViews.Proofs.Classification.WellFormed
import ComponentViews.Proofs.Conversion.Closure
import ComponentViews.Proofs.Conversion.Separation
import ComponentViews.Proofs.Customization.DistinctNames
import ComponentViews.Proofs.Graph.BuiltGraphs
import ComponentViews.Proofs.Registry.Conversion
import ComponentViews.Proofs.Registry.Scanning
import ComponentViews.Proofs.View.Streams
import ComponentViews.Proofs.Classification.BranchOrder
import ComponentViews.Proofs.Classification.Failures
import ComponentViews.Proofs.Graph.Defects
import ComponentViews.Proofs.Assembly.Independence
import ComponentViews.Proofs.Customization.Accounting
import ComponentViews.Proofs.Graph.RenderingDepth
import ComponentViews.Proofs.Classification.Values
import ComponentViews.Proofs.Graph.FlagTexts
import ComponentViews.Proofs.TypeReference
