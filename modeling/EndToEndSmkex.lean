import EndToEndSmkex.Lib.Run
import EndToEndSmkex.Lib.InfiniteRuns
import EndToEndSmkex.Lib.Unwinding
import EndToEndSmkex.Lib.PartialMaps
import EndToEndSmkex.Smkex.Client
import EndToEndSmkex.Smkex.Initiation
import EndToEndSmkex.Smkex.Copies
import EndToEndSmkex.Smkex.Isolation
import EndToEndSmkex.Smkex.SessionMap
import EndToEndSmkex.Smkex.Agreement
import EndToEndSmkex.Smkex.Delivery
import EndToEndSmkex.Smkex.Completion
import EndToEndSmkex.Smkex.Storm
import EndToEndSmkex.Smkex.HashAgreement
import EndToEndSmkex.Smkex.Digest
import EndToEndSmkex.Smkex.Freshness
import EndToEndSmkex.DataMsg.Retries
import EndToEndSmkex.AutoResend.Representation
import EndToEndSmkex.AutoResend.Selection
import EndToEndSmkex.AutoResend.Sorting
import EndToEndSmkex.AutoResend.Ranking
import EndToEndSmkex.AutoResend.Fifo
import EndToEndSmkex.AutoResend.Fairness
import EndToEndSmkex.AutoResend.ManualMode
import EndToEndSmkex.AutoResend.Synchronising
import EndToEndSmkex.AutoResend.Presence
import EndToEndSmkex.AutoResend.Resending
import EndToEndSmkex.AutoResend.Composition
import EndToEndSmkex.AutoResend.Liveness
import EndToEndSmkex.AutoResend.NoLoss
import EndToEndSmkex.AutoResend.Crediting
import EndToEndSmkex.SipStack.Recovery
import EndToEndSmkex.Buddy.BuddyList
import EndToEndSmkex.Buddy.Presence
import EndToEndSmkex.DataMsg.Receiving
import EndToEndSmkex.Calls.Rejection
import EndToEndSmkex.Smkex.Crypto
import EndToEndSmkex.Threads.Deadlock
import EndToEndSmkex.Threads.Crossings
import EndToEndSmkex.Threads.Undisturbed
import EndToEndSmkex.EndToEnd.Projection
import EndToEndSmkex.EndToEnd.Returning
import EndToEndSmkex.AutoResend.PayloadMemory
import EndToEndSmkex.UserAccount.Account
import EndToEndSmkex.EndToEnd.Attribution
import EndToEndSmkex.Calls.Timing
import EndToEndSmkex.Buddy.Online
