import TerminalChat.Concurrency.Program
import TerminalChat.Concurrency.Threads
import TerminalChat.Concurrency.Environments
import TerminalChat.Concurrency.RelyGuarantee
import TerminalChat.Concurrency.Throughout
import TerminalChat.Text.Bytes
import TerminalChat.Text.Framing
import TerminalChat.Text.Positions
import TerminalChat.Text.Separated
import TerminalChat.Query.Sorting
import TerminalChat.Abstract.Hall
import TerminalChat.Abstract.Invariants
import TerminalChat.Abstract.Runs
import TerminalChat.Abstract.Decrees
import TerminalChat.Abstract.Since
import TerminalChat.Client.ClientState
import TerminalChat.Client.Receiving
import TerminalChat.Client.Input
import TerminalChat.Client.Display
import TerminalChat.Client.Dispatch
import TerminalChat.Client.Wrapping
import TerminalChat.Client.Warnings
import TerminalChat.Server.ChatRoom
import TerminalChat.Server.Longest
import TerminalChat.Server.Database
import TerminalChat.Server.Deletion
import TerminalChat.Server.State
import TerminalChat.Server.Handlers
import TerminalChat.Server.Machine
import TerminalChat.Server.Abstraction
import TerminalChat.Server.Blocks
import TerminalChat.Server.Refinement
import TerminalChat.Server.Runs
import TerminalChat.Server.Upholding
import TerminalChat.Server.Membership
import TerminalChat.Server.Diary
import TerminalChat.Server.Authority
import TerminalChat.Server.Bans
import TerminalChat.Server.Ownership
import TerminalChat.Server.Creation
import TerminalChat.Server.Restart
import TerminalChat.Server.Informing
import TerminalChat.Server.Lines
import TerminalChat.Server.LineKeeping
import TerminalChat.Server.LockOrder
import TerminalChat.Server.Deadlock
import TerminalChat.Server.Crossing
import TerminalChat.Server.Deeds
import TerminalChat.Server.Performing
import TerminalChat.Server.Doing
import TerminalChat.Server.Honouring
import TerminalChat.Server.Watch
import TerminalChat.Server.Deliveries
import TerminalChat.Server.Meanwhile
import TerminalChat.Server.Succession
import TerminalChat.Server.Rows
import TerminalChat.Server.Names
import TerminalChat.Server.Speech
import TerminalChat.Server.Attribution
import TerminalChat.Server.Streams
import TerminalChat.Server.Refusing
import TerminalChat.Server.Refusals
import TerminalChat.Server.Shutdown
import TerminalChat.Server.Records
import TerminalChat.Server.Lifecycle
import TerminalChat.Server.Mirror
import TerminalChat.Server.Mirroring
import TerminalChat.Server.Admission
import TerminalChat.Server.Joining
import TerminalChat.Server.Histories
import TerminalChat.Server.Banishment
import TerminalChat.Server.Removal
import TerminalChat.Server.Opening
import TerminalChat.Server.Titles
import TerminalChat.Server.Passwords
import TerminalChat.Server.Connections
import TerminalChat.Server.Polling
import TerminalChat.Concurrency.Lockstep
import TerminalChat.Server.Veil
import TerminalChat.Server.Pacing
import TerminalChat.Server.Secrecy
import TerminalChat.System.Framing
import TerminalChat.System.Commands
import TerminalChat.System.Network
import TerminalChat.System.Tracking
import TerminalChat.System.Decoding
import TerminalChat.System.Bounds
import TerminalChat.System.Handshake
import TerminalChat.System.Listing
import TerminalChat.Concurrency.Termination
import TerminalChat.Query.Keyed
import TerminalChat.Abstract.Traces
import TerminalChat.Server.Quiescence
import TerminalChat.Server.Linearization
import TerminalChat.Server.Ordering
import TerminalChat.Server.DatabaseFile
import TerminalChat.Server.Registry
import TerminalChat.Server.Callers
import TerminalChat.Server.Conduct
import TerminalChat.Server.Sockets
import TerminalChat.Server.Process
import TerminalChat.Concurrency.Confinement
import TerminalChat.Server.Guards
import TerminalChat.Server.Returning
import TerminalChat.Concurrency.Emission
import TerminalChat.Text.Subsequence
import TerminalChat.Server.Utterances
import TerminalChat.System.Delivery
import TerminalChat.Client.Process
import TerminalChat.Client.Core
import TerminalChat.System.Terminals
