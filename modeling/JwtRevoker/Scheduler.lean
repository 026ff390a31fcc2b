import JwtRevoker.EngineInit
import JwtRevoker.StringParser

/-!
# Requests of the master

The role of a node and what `msgProcWorker` reads from the data map of a message.
-/
namespace JwtRevoker

/-- The three values `nodeRole` is ever assigned. -/
inductive NodeRole
  | singleNode
  | proxyNode
  | slaveNode
  deriving DecidableEq, Repr

def NodeRole.text : NodeRole → Str
  | .singleNode => "single_node"
  | .proxyNode => "proxy_node"
  | .slaveNode => "slave_node"

namespace Scheduler

/-- Token and expiry of a `revoke_jwt` message; a missing field reads as empty. -/
def revokeRequest (data : Data) : Str × ℤ :=
  (data.get "token", stringToTimestamp (data.get "exp_time"))

lemma inLong_of_revokeRequest {data : Data} {token : Str} {expTime : ℤ}
    (h : revokeRequest data = (token, expTime)) : InLong expTime := by
  have hexp : stringToTimestamp (data.get "exp_time") = expTime := congrArg Prod.snd h
  rw [← hexp]
  exact inLong_stringToTimestamp _

/-- The parameters of an `adjust_bloom_filter` message for a single or proxy
node; a missing field throws. -/
def filterParams (data : Data) : Except Fault Params := do
  let maxJwtLifeTime := stringToUInt (← data.atKey "max_jwt_life_time")
  let rotationInterval := stringToUInt (← data.atKey "rotation_interval")
  let bloomFilterSize := stringToSizeT (← data.atKey "bloom_filter_size")
  let hashFunctionNum := stringToUInt (← data.atKey "hash_function_num")
  return {
    maxJwtLifeTime := UInt32.ofNat maxJwtLifeTime
    rotationInterval := UInt32.ofNat rotationInterval
    bloomFilterSize := UInt64.ofNat bloomFilterSize
    hashFunctionNum := UInt32.ofNat hashFunctionNum }

end Scheduler

end JwtRevoker
