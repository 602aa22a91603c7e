import NfcStack.Nfc.Credits
import NfcStack.Nfc.HalRequest
import NfcStack.Gki.TimerList
import NfcStack.Gki.TaskTimers
import NfcStack.Gki.Pools
import NfcStack.Nfa.EeRestore
import NfcStack.Nfa.EeTable
import NfcStack.Nfa.EeUpdate
import NfcStack.Ndef.Bounds
import NfcStack.Hci.NvConfig
import NfcStack.Ce.T4tSelect
import NfcStack.Ce.Bounds
import NfcStack.Rw.T2tLockTlv
import NfcStack.Rw.T2tProtect
import NfcStack.Nfa.DmCache
import NfcStack.Nfa.DmPending
import NfcStack.Framework.NdefBuffer
import NfcStack.Rw.T3tRoundTrip
import NfcStack.CardEmulation.AidRoutingSkip
import NfcStack.CardEmulation.HceObserveMode
import NfcStack.CardEmulation.HceSelect
import NfcStack.Rw.T4tDdo
import NfcStack.Rw.T4tSizes
import NfcStack.Nfa.DmOutstanding
import NfcStack.Casimir.ObserveMode
import NfcStack.Nfa.DmMasks
import NfcStack.Nfa.NdefDispatched
import NfcStack.Nfa.NdefSegments
import NfcStack.Wlc.PowerTransfer
import NfcStack.CardEmulation.ForegroundPreference
import NfcStack.CardEmulation.RoutingTable
import NfcStack.CardEmulation.ResolveAid
import NfcStack.CardEmulation.NfcFAgreement
import NfcStack.CardEmulation.DynamicSettings
import NfcStack.CardEmulation.HceLocked
import NfcStack.CardEmulation.NfcFServicesCache
import NfcStack.CardEmulation.PollingFrames
import NfcStack.CardEmulation.PollingLoopFilters
import NfcStack.Rw.I93Bounds
import NfcStack.Rw.I93Detect
import NfcStack.Rw.T2tCapacity
import NfcStack.Utils.RingBuffer
import NfcStack.Nfc.SendReturns
import NfcStack.Nfa.CoreSetConfig
import NfcStack.Hci.StaticPipe
import NfcStack.Hci.ReceivedEvents
import NfcStack.Hci.HostReset
import NfcStack.Nfc.DiscoverPending
import NfcStack.Nfc.EeNotifications
import NfcStack.Nfc.Activation
import NfcStack.Nfc.DataWire
import NfcStack.Framework.NdefBuilt
