import Nightcrow.Recovery.Machine

namespace Nightcrow.Recovery

inductive Value where
  | null
  | bool (b : Bool)
  | number (i64 : Option ℤ)
  | string (s : String)
  | array (items : List Value)
  | object (fields : List (String × Value))

namespace Value

def get (key : String) : Value → Option Value
  | .object fields => (fields.find? (fun field => field.1 = key)).map Prod.snd
  | _ => none

def asStr : Value → Option String
  | .string s => some s
  | _ => none

def asI64 : Value → Option ℤ
  | .number i64 => i64
  | _ => none

end Value

def resetEpochFromJson (payload : Value) (path : List String) (nowEpoch : ℤ) : Option ℤ :=
  ((path.foldl (fun node key => node.bind (Value.get key)) (some payload)).bind Value.asI64).bind
    (fun secs => plausibleReset secs nowEpoch)

def plainArgument (id : String) : Bool :=
  id.toList.all (fun c => c.isAlphanum || c = '-' || c = '_')

end Nightcrow.Recovery
