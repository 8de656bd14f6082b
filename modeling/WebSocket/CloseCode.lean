/-!
# Close codes

A close code tells the peer why a connection ends. Codes with an assigned
meaning have a constructor each; the remaining numbers are kept together with
the range that they were taken from.
-/

namespace WebSocket

/-- Why an endpoint closes its connection. -/
inductive CloseCode
  /-- The purpose of the connection is fulfilled. -/
  | normal
  /-- The endpoint is going away, as a server does when it shuts down. -/
  | goingAway
  /-- The peer broke a rule of the protocol. -/
  | protocolError
  /-- The peer sent a kind of data that the endpoint does not take. -/
  | unsupportedData
  /-- Assigned no meaning yet. -/
  | reserved
  /-- A close frame came without a code. -/
  | noStatus
  /-- The connection went away without a close frame. -/
  | abnormal
  /-- A message does not fit its kind, such as text that is not UTF-8. -/
  | invalidPayload
  /-- A message violates a policy of the endpoint. -/
  | policyViolation
  /-- A message is too big for the endpoint. -/
  | messageTooBig
  /-- A client misses an extension that it asked for. -/
  | missingExtension
  /-- The endpoint met an unexpected condition. -/
  | internalError
  /-- The server restarts. -/
  | serviceRestart
  /-- The server is overloaded. -/
  | tryAgainLater
  /-- The secure transport could not be set up. -/
  | tlsFailure
  /-- A number set aside for registration. -/
  | registered (value : UInt16)
  /-- A number set aside for libraries and applications. -/
  | application (value : UInt16)
  /-- A number outside every range. -/
  | unassigned (value : UInt16)
  deriving DecidableEq, Repr

namespace CloseCode

/-- The number a close code is written as. -/
def toUInt16 : CloseCode → UInt16
  | .normal => 1000
  | .goingAway => 1001
  | .protocolError => 1002
  | .unsupportedData => 1003
  | .reserved => 1004
  | .noStatus => 1005
  | .abnormal => 1006
  | .invalidPayload => 1007
  | .policyViolation => 1008
  | .messageTooBig => 1009
  | .missingExtension => 1010
  | .internalError => 1011
  | .serviceRestart => 1012
  | .tryAgainLater => 1013
  | .tlsFailure => 1015
  | .registered value => value
  | .application value => value
  | .unassigned value => value

/-- The close code a number stands for. -/
def ofUInt16 (value : UInt16) : CloseCode :=
  match value.toNat with
  | 1000 => .normal
  | 1001 => .goingAway
  | 1002 => .protocolError
  | 1003 => .unsupportedData
  | 1004 => .reserved
  | 1005 => .noStatus
  | 1006 => .abnormal
  | 1007 => .invalidPayload
  | 1008 => .policyViolation
  | 1009 => .messageTooBig
  | 1010 => .missingExtension
  | 1011 => .internalError
  | 1012 => .serviceRestart
  | 1013 => .tryAgainLater
  | 1015 => .tlsFailure
  | number =>
      if 1016 ≤ number ∧ number ≤ 2999 then .registered value
      else if 3000 ≤ number ∧ number ≤ 4999 then .application value
      else .unassigned value

/-- Every number is written back as it was read. -/
@[simp] theorem toUInt16_ofUInt16 (value : UInt16) :
    (ofUInt16 value).toUInt16 = value := by
  apply UInt16.toNat_inj.mp
  unfold ofUInt16
  split
  all_goals first
    | (rename_i equality; rw [equality]; rfl)
    | (repeat' split) <;> rfl

/-- Whether a close frame may carry the code: 1000 to 1011 and 1015 may be sent,
whatever constructor holds them. -/
def isSendable (code : CloseCode) : Bool :=
  let number := code.toUInt16.toNat
  (1000 ≤ number && number ≤ 1011) || number == 1015

/-- The text a close code is reported by. -/
def name (code : CloseCode) : String :=
  toString code.toUInt16.toNat

end CloseCode
end WebSocket
