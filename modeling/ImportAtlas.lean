import ImportAtlas.Main
import ImportAtlas.Proofs.DrawnEdges
import ImportAtlas.Proofs.ImportClosure
import ImportAtlas.Proofs.WalkProblems
import ImportAtlas.Proofs.GraphChanges
import ImportAtlas.Proofs.OrderOfArrival
import ImportAtlas.Proofs.ClusterBlocks
import ImportAtlas.Proofs.DotReading
import ImportAtlas.Proofs.Candidates
import ImportAtlas.Proofs.WalkSymbols
import ImportAtlas.Proofs.Preparation
import ImportAtlas.Proofs.Writing
import ImportAtlas.Proofs.ExitCodes
import ImportAtlas.Proofs.RenderingOptions
import ImportAtlas.Proofs.PictureAndLinks
import ImportAtlas.Proofs.ProjectRoot
import ImportAtlas.Proofs.RelaxedDocuments
import ImportAtlas.Proofs.AggregatedEdges
import ImportAtlas.Proofs.Namesakes
import ImportAtlas.Proofs.CanonicalPaths
import ImportAtlas.Proofs.ShortPaths
import ImportAtlas.Proofs.AliasOrder
import ImportAtlas.Proofs.PackagePruning
import ImportAtlas.Proofs.ListedSymbols
import ImportAtlas.Proofs.SourceFiles
import ImportAtlas.Proofs.ReadBack
import ImportAtlas.Proofs.AliasExpansion
import ImportAtlas.Proofs.ReadDocuments
import ImportAtlas.Proofs.StrictTexts
import ImportAtlas.Proofs.RelaxedFaults
import ImportAtlas.Proofs.AcceptedManifests
import ImportAtlas.Proofs.NamedModules
import ImportAtlas.Proofs.HiddenBodies
import ImportAtlas.Proofs.DefaultExports
import ImportAtlas.Proofs.CommentedExports
import ImportAtlas.Proofs.DocumentationBlocks
