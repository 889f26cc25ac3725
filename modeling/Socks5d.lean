import Socks5d.Buffer
import Socks5d.Users
import Socks5d.Parsers
import Socks5d.Kernel
import Socks5d.Selector
import Socks5d.Stm
import Socks5d.Session
import Socks5d.Tunnel
import Socks5d.Mng
import Socks5d.Server
import Socks5d.View
import Socks5d.Ownership
import Socks5d.Operations
import Socks5d.Shape
import Socks5d.Calls
import Socks5d.Negotiation
import Socks5d.Connecting
import Socks5d.Relay
import Socks5d.Request
import Socks5d.Pump
import Socks5d.Ending
import Socks5d.Callbacks
import Socks5d.Attending
import Socks5d.Surroundings
import Socks5d.Admitting
import Socks5d.Accepting
import Socks5d.Sweeping
import Socks5d.Lib.Links
import Socks5d.Lib.Lines
import Socks5d.Turning
import Socks5d.Looping
import Socks5d.Running
import Socks5d.Sessions
import Socks5d.Streams
import Socks5d.Closing
import Socks5d.Tunnels
import Socks5d.Reckoning
import Socks5d.Descriptors
import Socks5d.Management
import Socks5d.Replaying
import Socks5d.Segments
import Socks5d.Decoding
import Socks5d.Messages
import Socks5d.Pumping
import Socks5d.Deadlines
import Socks5d.Arrivals
import Socks5d.Client
import Socks5d.Commands
import Socks5d.Obeying
import Socks5d.Transcript
import Socks5d.Lib.Tables
import Socks5d.Logging
import Socks5d.Lib.Machines
import Socks5d.Lib.Slots
import Socks5d.UserTable
import Socks5d.UserCalls
import Socks5d.ZeroBytes
import Socks5d.Effects
import Socks5d.Listing
import Socks5d.Counters
import Socks5d.Room
import Socks5d.Gate
import Socks5d.Speech
import Socks5d.Attempts
import Socks5d.Delivery
import Socks5d.Earned
import Socks5d.Hearing
import Socks5d.Following
import Socks5d.Isolation
import Socks5d.ItemArray
import Socks5d.Upkeep
import Socks5d.Covering
import Socks5d.Exchange
import Socks5d.Reporting
import Socks5d.Framing
import Socks5d.Vetting
import Socks5d.Placing
import Socks5d.Stores
import Socks5d.Lib.CString
import Socks5d.Lib.Readers
import Socks5d.Lib.Histories
import Socks5d.Lib.Guards
import Socks5d.Lib.Incremental
import Socks5d.Lib.Words
import Socks5d.Serving
import Socks5d.Outcomes
import Socks5d.Numerals
import Socks5d.Accounts
import Socks5d.Admin
import Socks5d.Roster
import Socks5d.Outside
import Socks5d.AccessLog
import Socks5d.Values
import Socks5d.Wording
import Socks5d.Tokens
