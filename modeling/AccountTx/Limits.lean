/-!
The numbers that the chain fixes: charges, lengths of the fields of a transaction, and limits.
-/

namespace AccountTx.Limits

/-- Energy for each signature of a transaction. -/
def energyPerSignature : UInt64 := 100

/-- Energy for each byte of the header and the payload. -/
def energyPerByte : UInt64 := 1

/-- Energy for a transfer, with a memo or without, or for the registration of data. -/
def fixedCost : UInt64 := 300

/-- A module costs one unit of energy for so many bytes. -/
def moduleBytesPerEnergy : Nat := 10

def addressLength : Nat := 32

/-- The leading bytes of an address that tell which account it is. -/
def addressIdentityLength : Nat := 29

def maxAlias : UInt32 := 16777215

def headerSize : UInt32 := 60

/-- The first byte of a block item; it is not part of what is hashed. -/
def blockItemVersion : UInt8 := 0

/-- Tells account transactions from other block items. -/
def accountTransactionKind : UInt8 := 0

def hashLength : Nat := 32

def maxDataLength : Nat := 256

def maxNameLength : Nat := 100

def maxParameterLength : Nat := 65535

/-- What the name of every init function begins with. -/
def initPrefix : String := "init_"

/-- Credentials of a transaction, and keys of a credential. -/
def maxSigners : Nat := 255

def maxSignatureLength : Nat := 65535

def secretKeyLength : Nat := 32

def publicKeyLength : Nat := 32

def signatureLength : Nat := 64

def microPerCcd : UInt64 := 1000000

/-- Seconds until a transaction expires, where nobody chose. -/
def defaultExpirySeconds : UInt64 := 1800

/-- The latest time that a signed 64-bit number of seconds holds. -/
def maxExpiry : UInt64 := 9223372036854775807

end AccountTx.Limits
