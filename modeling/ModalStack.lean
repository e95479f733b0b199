import ModalStack.Text.Ranges
import ModalStack.Text.Bytes
import ModalStack.Text.Segmentation
import ModalStack.Text.Decimal
import ModalStack.Text.Word
import ModalStack.Text.Blank
import ModalStack.Text.Visible
import ModalStack.Text.Cluster.Kind
import ModalStack.Text.Cluster
import ModalStack.Text.Quoted
import ModalStack.Text.Record
import ModalStack.Assoc
import ModalStack.Table
import ModalStack.Numeral
import ModalStack.Position
import ModalStack.Selection
import ModalStack.Mode
import ModalStack.Command
import ModalStack.State
import ModalStack.State.Motion
import ModalStack.State.Operation
import ModalStack.State.Search
import ModalStack.State.Step
import ModalStack.Key
import ModalStack.Key.Category
import ModalStack.Key.Token
import ModalStack.Key.Checked
import ModalStack.Phrase
import ModalStack.Phrase.Bounds
import ModalStack.Phrase.Pending
import ModalStack.Change
import ModalStack.Action
import ModalStack.Action.Library
import ModalStack.Action.Checked
import ModalStack.Keymap
import ModalStack.Keymap.Default
import ModalStack.Resolution
import ModalStack.CommandLine
import ModalStack.Context
import ModalStack.Intercept
import ModalStack.Listeners
import ModalStack.Engine
import ModalStack.Written
import ModalStack.Notes.Stack
import ModalStack.Notes.Terminal
import ModalStack.Notes.App
import ModalStack.Notes.Checked
import ModalStack.Proofs.Leaves
import ModalStack.Proofs.Turns
import ModalStack.Proofs.Reachable
import ModalStack.Proofs.CursorBounds
import ModalStack.Proofs.PendingKeys
import ModalStack.Proofs.Addressing
import ModalStack.Proofs.Origins
import ModalStack.Proofs.Following
import ModalStack.Proofs.Listening
import ModalStack.Proofs.History
import ModalStack.Proofs.ListenerHistory
import ModalStack.Proofs.PhraseGrammar
import ModalStack.Proofs.PhraseEnds
import ModalStack.Proofs.LastKeys
import ModalStack.Proofs.Escaping
import ModalStack.Proofs.Interception
import ModalStack.Proofs.Fields
import ModalStack.Proofs.CheckedNotes
import ModalStack.Proofs.NotesInStep
import ModalStack.Proofs.NotesKept
import ModalStack.Proofs.SearchMemory
import ModalStack.Proofs.ActionInputs
import ModalStack.Proofs.RegistersUnread
import ModalStack.Proofs.CheckedArithmetic
import ModalStack.Proofs.TypedKeys
import ModalStack.Proofs.PhraseBeginnings
import ModalStack.Proofs.Completing
import ModalStack.Proofs.TokenCutting
import ModalStack.Proofs.Removals
import ModalStack.Proofs.Layering
import ModalStack.Proofs.RegisterPrefix
import ModalStack.Proofs.TypedPresses
import ModalStack.Proofs.TypedText
import ModalStack.Proofs.CountedKeys
import ModalStack.Proofs.TypedNumbers
import ModalStack.Proofs.TypedRanges
import ModalStack.Proofs.CommandSpellings
import ModalStack.Proofs.Selecting
import ModalStack.Proofs.AtomicSteps
import ModalStack.Proofs.ReceivedText
import ModalStack.Proofs.SearchTyping
import ModalStack.Proofs.ClusterRules
import ModalStack.Proofs.Clusters
import ModalStack.Proofs.ContextMemory
import ModalStack.Proofs.WorkspaceLines
import ModalStack.Proofs.CommandForms
import ModalStack.Proofs.ChangeGrammar
import ModalStack.Proofs.RememberedChanges
import ModalStack.Proofs.Unclipped
import ModalStack.Proofs.MovedNotes
import ModalStack.Proofs.NotePresses
import ModalStack.Proofs.TypedNotes
import ModalStack.Proofs.Reordering
import ModalStack.Proofs.PhraseTyping
import ModalStack.Proofs.TypedCounts
import ModalStack.Proofs.CursorRoutes
import ModalStack.Proofs.ByteCutting
