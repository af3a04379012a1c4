import TokenPriceAgg.Core.Validator
import TokenPriceAgg.Lib.PyText

/-!
# RPC calls and their answers

What `AsyncRpcClient.call` is asked and what it can return: any Python object, as far as the vault adapters look at
it.  The library functions that decode ABI words and checksum addresses are a parameter, `Web3Codec`.
-/

namespace TokenPriceAgg

open PyLib Eff

/-- A Python object.  What `bool` and `int` do to an object that is none of the listed ones is part of it. -/
inductive PyObj
  | none
  | bool (b : Bool)
  | int (n : Int)
  | str (s : String)
  | bytes (b : Bytes)
  /-- a list or a tuple -/
  | seq (items : List PyObj)
  | dict (entries : List (String × PyObj))
  | other (truth : Except Exn Bool) (toInt : Except Exn Int)

namespace PyObj

/-- `bool(x)`. -/
def truth : PyObj → Except Exn Bool
  | .none => .ok false
  | .bool b => .ok b
  | .int n => .ok (n ≠ 0)
  | .str s => .ok (s ≠ "")
  | .bytes b => .ok (!b.isEmpty)
  | .seq items => .ok (!items.isEmpty)
  | .dict entries => .ok (!entries.isEmpty)
  | .other t _ => t

def intOrValueError : Option Int → Except Exn Int
  | some n => .ok n
  | Option.none => .error (.valueError "invalid literal for int() with base 10")

/-- `int(x)`; bytes are read as ASCII text. -/
def toInt : PyObj → Except Exn Int
  | .none => .error (.typeError "int() argument must be a string, a bytes-like object or a real number")
  | .bool b => .ok (if b then 1 else 0)
  | .int n => .ok n
  | .str s => intOrValueError (intOfText s.toList)
  | .bytes b => intOrValueError (intOfAscii (b.map fun byte => if byte < 128 then Char.ofNat byte.toNat else '?'))
  | .seq _ => .error (.typeError "int() argument must be a string, a bytes-like object or a real number")
  | .dict _ => .error (.typeError "int() argument must be a string, a bytes-like object or a real number")
  | .other _ n => n

/-- `x.get(key)` of a dictionary. -/
def get (entries : List (String × PyObj)) (key : String) : PyObj := (entries.lookup key).getD .none

end PyObj

/-- The value of a hexadecimal digit. -/
def hexValue (c : Char) : Option Nat :=
  if '0' ≤ c ∧ c ≤ '9' then some (c.toNat - 0x30)
  else if 'a' ≤ c ∧ c ≤ 'f' then some (c.toNat - 0x61 + 10)
  else if 'A' ≤ c ∧ c ≤ 'F' then some (c.toNat - 0x41 + 10)
  else none

/-- `bytes.fromhex(text)`: pairs of digits, with whitespace between the pairs; `none` is a `ValueError`. -/
def fromHex : List Char → Option Bytes
  | [] => some []
  | c :: rest =>
    if isAsciiSpace c then fromHex rest
    else
      match hexValue c, rest with
      | some hi, d :: rest =>
        match hexValue d with
        | some lo => (fromHex rest).map fun bytes => UInt8.ofNat (16 * hi + lo) :: bytes
        | none => none
      | _, _ => none

/-- `n.to_bytes(32, "big")`. -/
def toBytes32 (n : Nat) : Bytes := (List.range 32).map fun i => UInt8.ofNat (n / 256 ^ (31 - i))

inductive Abi
  | erc20
  | erc4626
  | yearnV2
  | multicall3
deriving DecidableEq, Repr

inductive RpcArg
  | uint (n : Nat)
  /-- the calls of `aggregate3`: target, `allowFailure` and call data -/
  | calls (calls : List (String × Bool × Bytes))
deriving DecidableEq, Repr

structure RpcCall where
  chainId : Int
  address : String
  abi : Abi
  fnName : String
  args : List RpcArg
deriving DecidableEq, Repr

/-- What the adapters use of the `web3` package.  The two decoders are `codec.decode` of a single word; `none` is
an exception. -/
structure Web3Codec extends EthUtils where
  decodeAddress : Bytes → Option String
  decodeUint256 : Bytes → Option Int

/-- The chains of `CHAINS`. -/
def chainIds : List Int := [1, 10, 100, 137, 42161, 43114]

/-- `MULTICALL3_BY_CHAIN.get(chain_id)`. -/
def multicall3ByChain (chainId : Int) : Option String :=
  if chainId ∈ chainIds then some "0xcA11bde05977b3631167028862bE2a173976CA11" else none

end TokenPriceAgg
