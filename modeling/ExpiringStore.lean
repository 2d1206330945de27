import ExpiringStore.Database.Guarded
import ExpiringStore.Database.Plain
import ExpiringStore.Database.Recorded
import ExpiringStore.Hub.Step
import ExpiringStore.Inspect
import ExpiringStore.Launch.Run
import ExpiringStore.Request.Scripted
import ExpiringStore.Store.View
import ExpiringStore.Main
import ExpiringStore.Proofs.Text.Place
import ExpiringStore.Proofs.Text.Utf8
import ExpiringStore.Proofs.Token.Layout
import ExpiringStore.Proofs.Token.Reading
import ExpiringStore.Proofs.Token.Joined
import ExpiringStore.Proofs.Statement.Grammar
import ExpiringStore.Proofs.Statement.Derivation
import ExpiringStore.Proofs.Statement.Joined
import ExpiringStore.Proofs.Connection.Framing
import ExpiringStore.Proofs.Connection.Means
import ExpiringStore.Proofs.Connection.Service
import ExpiringStore.Proofs.Connection.Stream
import ExpiringStore.Proofs.Store.Visible
import ExpiringStore.Proofs.Session.Statements
import ExpiringStore.Proofs.Response.Text
import ExpiringStore.Proofs.Exchange.Basic
import ExpiringStore.Proofs.Exchange.Serial
import ExpiringStore.Proofs.Response.Line
import ExpiringStore.Proofs.Response.Reading
import ExpiringStore.Proofs.Database.Recorded
import ExpiringStore.Proofs.Request.Attempts
import ExpiringStore.Proofs.Request.Complete
import ExpiringStore.Proofs.Request.Joined
import ExpiringStore.Proofs.Store.Step
import ExpiringStore.Proofs.Store.History
import ExpiringStore.Proofs.Store.Alike
import ExpiringStore.Proofs.Store.Size
import ExpiringStore.Proofs.Store.Books
import ExpiringStore.Proofs.Store.Touch
import ExpiringStore.Proofs.Store.Several
import ExpiringStore.Proofs.Session.Effects
import ExpiringStore.Proofs.Access.Digest
import ExpiringStore.Proofs.Hub.Session
import ExpiringStore.Proofs.Hub.Interleaved
import ExpiringStore.Proofs.Hub.Accounts
import ExpiringStore.Proofs.Exchange.Sweeps
import ExpiringStore.Proofs.Request.Interrupted
import ExpiringStore.Proofs.Connection.Limit
import ExpiringStore.Proofs.Token.Pieces
import ExpiringStore.Proofs.Statement.Printed
import ExpiringStore.Proofs.Connection.Handled
import ExpiringStore.Proofs.Connection.Ledger
import ExpiringStore.Proofs.Statement.Refused
import ExpiringStore.Proofs.Token.Quotes
import ExpiringStore.Proofs.Connection.LastLine
import ExpiringStore.Proofs.Connection.Silent
import ExpiringStore.Proofs.Access.Credentials
import ExpiringStore.Proofs.Store.Sweep
import ExpiringStore.Proofs.Session.Several
import ExpiringStore.Proofs.Database.Guarded
import ExpiringStore.Proofs.Request.Guarded
import ExpiringStore.Proofs.Sweeper.InTime
import ExpiringStore.Proofs.Launch.Options
import ExpiringStore.Proofs.Token.Streaming
import ExpiringStore.Proofs.Hub.Apart
import ExpiringStore.Proofs.Connection.Readable
