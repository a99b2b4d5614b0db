import DltxtBridge.Protocol.Json

namespace DltxtBridge.Protocol

inductive RequestId
  | monostate
  | integer (value : Int64)
  | string (value : Bytes)
deriving DecidableEq

namespace Jsonrpc

def jsonrpcKey : Bytes := ascii "jsonrpc"

def idKey : Bytes := ascii "id"

def methodKey : Bytes := ascii "method"

def paramsKey : Bytes := ascii "params"

def resultKey : Bytes := ascii "result"

def errorKey : Bytes := ascii "error"

def protocolVersion : Bytes := ascii "2.0"

def isTrackableRequestId (id : RequestId) : Bool := id ≠ .monostate

/-- `is_number_integer` holds for unsigned numbers too, so the branch the source has for
these is never reached. -/
def requestIdFromJson : Json → Option RequestId
  | .null => some .monostate
  | .string value => some (.string value)
  | .integer value => some (.integer value)
  | .unsigned value => some (.integer value.toInt64)
  | _ => none

def requestIdToJson : RequestId → Json
  | .monostate => .null
  | .integer value => .integer value
  | .string value => .string value

def isValidJsonrpcResponse (message : Json) : Bool :=
  message.isObject && (message.contains jsonrpcKey && (message.member jsonrpcKey).equalsString protocolVersion) &&
    message.contains idKey && !message.contains methodKey &&
    (message.contains resultKey != message.contains errorKey)

def createResponse (id result : Json) : Json :=
  .object [(idKey, id), (jsonrpcKey, .string protocolVersion), (resultKey, result)]

def createError (id : Json) (code : ℤ) (message : Bytes) : Json :=
  .object [(errorKey, .object [(ascii "code", .integer (Int64.ofInt code)), (ascii "message", .string message)]),
    (idKey, id), (jsonrpcKey, .string protocolVersion)]

def createNotification (method : Bytes) (params : Json) : Json :=
  .object [(jsonrpcKey, .string protocolVersion), (methodKey, .string method), (paramsKey, params)]

end Jsonrpc

end DltxtBridge.Protocol
