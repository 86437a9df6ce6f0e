import NanoCell.Dummy.Bounce
import NanoCell.Dummy.Ping
import NanoCell.Expt.Probe
import NanoCell.Expt.Reader
import NanoCell.Expt.Receive
import NanoCell.Expt.Reset
import NanoCell.Expt.Sent
import NanoCell.Lib.Ledger
import NanoCell.Lib.Transition
import NanoCell.Rtl8101.Accounts
import NanoCell.Rtl8101.Handshake
import NanoCell.Rtl8101.PciNet
import NanoCell.Rtl8101.Phy
import NanoCell.Rtl8101.Quiet
import NanoCell.Rtl8101.Restart
import NanoCell.Rtl8101.RxFill
import NanoCell.Rtl8101.RxLength
import NanoCell.Rtl8101.RxQueue
import NanoCell.Rtl8101.RxService
import NanoCell.Rtl8101.Setup
import NanoCell.Rtl8101.Timeout
import NanoCell.Rtl8101.TxClear
import NanoCell.Rtl8101.TxQueue
import NanoCell.Rtl8101.TxService
import NanoCell.Snull.HwTx
import NanoCell.Snull.Lock
import NanoCell.Snull.Order
import NanoCell.Snull.Pool
import NanoCell.Snull.Teardown
