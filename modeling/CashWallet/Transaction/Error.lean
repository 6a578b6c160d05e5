import CashWallet.Script.Error

/-!
# Faults of transactions

Why a transaction does not decode, cannot be built or funded, or is not signed.
-/

namespace CashWallet

inductive TransactionError where
  | indexOutOfRange (index count : Nat)
  | noInput (index : Nat)
  | zeroAmount
  | nothingToSpend
  | noDestinations
  | spentCount (inputs outputs : Nat)
  | feeChanged (paid : Option UInt64) (expected : UInt64)
  | unsupportedScript (index : Nat) (script : Bytes)
  | noKey (index : Nat) (keyHash : Bytes)
  | pushCount (index count : Nat)
  | emptySignature (index : Nat)
  | digestFlag (index : Nat) (found wanted : UInt8)
  | foreignKey (index : Nat)
  | invalidSignature (index : Nat)
  | digestText (place : Nat) (fault : Hex.Fault)
  | digestLength (place length : Nat)
  | draftSignatures (wanted signatures publicKeys : Nat)
  | hexText (fault : Hex.Fault)
  | version (fault : CodecError)
  | lockTime (fault : CodecError)
  | trailingBytes (count : Nat)
  | insufficientFunds (required available : UInt64)
  | script (fault : ScriptError)
  | codec (fault : CodecError)
  deriving DecidableEq, Repr

namespace TransactionError

def invalid (reason : String) : String :=
  "invalid transaction: " ++ reason

def signing (reason : String) : String :=
  "signing error: " ++ reason

def serialization (reason : String) : String :=
  "serialization error: " ++ reason

def optionText : Option UInt64 → String
  | some n => "Some(" ++ toString n ++ ")"
  | none => "None"

/-- The name of the kind of fault. -/
def kind : TransactionError → String
  | indexOutOfRange _ _ => "InvalidTransaction"
  | noInput _ => "InvalidTransaction"
  | zeroAmount => "InvalidTransaction"
  | nothingToSpend => "InvalidTransaction"
  | noDestinations => "InvalidTransaction"
  | spentCount _ _ => "InvalidTransaction"
  | feeChanged _ _ => "InvalidTransaction"
  | unsupportedScript _ _ => "SigningError"
  | noKey _ _ => "SigningError"
  | pushCount _ _ => "SigningError"
  | emptySignature _ => "SigningError"
  | digestFlag _ _ _ => "SigningError"
  | foreignKey _ => "SigningError"
  | invalidSignature _ => "SigningError"
  | digestText _ _ => "SigningError"
  | digestLength _ _ => "SigningError"
  | draftSignatures _ _ _ => "SigningError"
  | hexText _ => "SerializationError"
  | version _ => "SerializationError"
  | lockTime _ => "SerializationError"
  | trailingBytes _ => "SerializationError"
  | insufficientFunds _ _ => "InsufficientFunds"
  | script fault => "Script." ++ fault.kind
  | codec fault => "Primitives." ++ fault.kind

def message : TransactionError → String
  | indexOutOfRange index count =>
    invalid s!"input index {index} out of range (tx has {count} inputs)"
  | noInput index => invalid s!"no input at index {index}"
  | zeroAmount => invalid "target value must be positive"
  | nothingToSpend => invalid "no inputs to spend"
  | noDestinations => invalid "no destinations"
  | spentCount inputs outputs => invalid s!"{inputs} inputs but {outputs} spent outputs"
  | feeChanged paid expected =>
    invalid ("built transaction pays " ++ optionText paid ++ s!", expected fee {expected}")
  | unsupportedScript index bytes =>
    signing (s!"input {index} spends an unsupported script type: " ++ Hex.encode bytes)
  | noKey index keyHash =>
    signing (s!"no key for input {index} (pubkey hash " ++ Hex.encode keyHash ++ ")")
  | pushCount index count =>
    signing s!"input {index} signature script has {count} pushes, want 2"
  | emptySignature index => signing s!"input {index} has an empty signature"
  | digestFlag index found wanted =>
    signing (s!"input {index} sighash type " ++ ScriptError.byteLiteral found ++ ", want " ++
      ScriptError.byteLiteral wanted)
  | foreignKey index => signing s!"input {index} public key does not match the spent output"
  | invalidSignature index => signing s!"input {index} signature does not verify"
  | digestText place fault => signing (s!"tosign[{place}] is not hex: " ++ fault.message)
  | digestLength place length => signing s!"tosign[{place}] is {length} bytes, want 32"
  | draftSignatures wanted signatures publicKeys =>
    signing (s!"draft needs {wanted} signatures, got {signatures} signatures and " ++
      s!"{publicKeys} public keys")
  | hexText fault => serialization ("invalid hex: " ++ fault.message)
  | version fault => serialization ("reading version: " ++ fault.message)
  | lockTime fault => serialization ("reading lock time: " ++ fault.message)
  | trailingBytes count => serialization s!"trailing {count} bytes after transaction"
  | insufficientFunds required available =>
    s!"insufficient funds: need {required}, have {available}"
  | script fault => "script error: " ++ fault.message
  | codec fault => "primitives error: " ++ fault.message

end TransactionError

end CashWallet
