/-!
The types of account transactions, with their names and the tags that stand for them on the wire.
-/

namespace AccountTx

inductive TransactionType where
  | deployModule
  | initContract
  | update
  | transfer
  | addBaker
  | removeBaker
  | updateBakerStake
  | updateBakerRestakeEarnings
  | updateBakerKeys
  | updateCredentialKeys
  | encryptedAmountTransfer
  | transferToEncrypted
  | transferToPublic
  | transferWithSchedule
  | updateCredentials
  | registerData
  | transferWithMemo
  | encryptedAmountTransferWithMemo
  | transferWithScheduleAndMemo
  | configureBaker
  | configureDelegation
  deriving DecidableEq

namespace TransactionType

def all : List TransactionType :=
  [.deployModule, .initContract, .update, .transfer, .addBaker, .removeBaker, .updateBakerStake,
    .updateBakerRestakeEarnings, .updateBakerKeys, .updateCredentialKeys, .encryptedAmountTransfer,
    .transferToEncrypted, .transferToPublic, .transferWithSchedule, .updateCredentials,
    .registerData, .transferWithMemo, .encryptedAmountTransferWithMemo,
    .transferWithScheduleAndMemo, .configureBaker, .configureDelegation]

def tag : TransactionType → UInt8
  | .deployModule => 0
  | .initContract => 1
  | .update => 2
  | .transfer => 3
  | .addBaker => 4
  | .removeBaker => 5
  | .updateBakerStake => 6
  | .updateBakerRestakeEarnings => 7
  | .updateBakerKeys => 8
  | .updateCredentialKeys => 13
  | .encryptedAmountTransfer => 16
  | .transferToEncrypted => 17
  | .transferToPublic => 18
  | .transferWithSchedule => 19
  | .updateCredentials => 20
  | .registerData => 21
  | .transferWithMemo => 22
  | .encryptedAmountTransferWithMemo => 23
  | .transferWithScheduleAndMemo => 24
  | .configureBaker => 25
  | .configureDelegation => 26

def name : TransactionType → String
  | .deployModule => "DeployModule"
  | .initContract => "InitContract"
  | .update => "Update"
  | .transfer => "Transfer"
  | .addBaker => "AddBaker"
  | .removeBaker => "RemoveBaker"
  | .updateBakerStake => "UpdateBakerStake"
  | .updateBakerRestakeEarnings => "UpdateBakerRestakeEarnings"
  | .updateBakerKeys => "UpdateBakerKeys"
  | .updateCredentialKeys => "UpdateCredentialKeys"
  | .encryptedAmountTransfer => "EncryptedAmountTransfer"
  | .transferToEncrypted => "TransferToEncrypted"
  | .transferToPublic => "TransferToPublic"
  | .transferWithSchedule => "TransferWithSchedule"
  | .updateCredentials => "UpdateCredentials"
  | .registerData => "RegisterData"
  | .transferWithMemo => "TransferWithMemo"
  | .encryptedAmountTransferWithMemo => "EncryptedAmountTransferWithMemo"
  | .transferWithScheduleAndMemo => "TransferWithScheduleAndMemo"
  | .configureBaker => "ConfigureBaker"
  | .configureDelegation => "ConfigureDelegation"

def ofTag? (tag : UInt8) : Option TransactionType := all.find? fun t => t.tag == tag

def ofName? (name : String) : Option TransactionType := all.find? fun t => t.name == name

end TransactionType

end AccountTx
