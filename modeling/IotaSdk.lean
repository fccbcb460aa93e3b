import IotaSdk.Types
import IotaSdk.Client.Api
import IotaSdk.Client.Clock
import IotaSdk.Client.Inclusion
import IotaSdk.Client.Inputs
import IotaSdk.Client.Calls
import IotaSdk.Client.Retry
import IotaSdk.Client.Selection
import IotaSdk.InputSelection.Burn
import IotaSdk.Wallet.Types
import IotaSdk.Wallet.Update
import IotaSdk.Wallet.Invariants
import IotaSdk.Wallet.Marking
import IotaSdk.Wallet.Sync
import IotaSdk.Wallet.Commit
import IotaSdk.Wallet.Store
