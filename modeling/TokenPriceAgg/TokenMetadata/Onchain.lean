import TokenPriceAgg.TokenMetadata.Policy
import TokenPriceAgg.Vault.Adapters

/-!
# Metadata from the chain

`fetch_onchain_metadata` asks one `aggregate3` for the decimals and the symbol of each address and reads the answers by
their position.  The positions are those after `normalize_multicall_result` (the one of the vault adapters), which
skips what is no entry, so that everything behind a skipped object moves up.

`metadataFor_read` says what an address gets: what is read at its own two answers.  The answers keep the positions of
the response when every object is an entry (`getElem?_normalizeItems`), and only then
(`onchain_metadata_attributed_iff`).
-/

namespace TokenPriceAgg

open PyLib

/-- What is used of the `web3` package: `codec.decode` of a single value; `none` is an exception. -/
structure OnchainCodec extends EthUtils where
  decodeUint8 : Bytes → Option Int
  decodeString : Bytes → Option String
  decodeBytes32 : Bytes → Option Bytes

namespace OnchainMetadata

/-! ### Decoding -/

/-- The characters of a UTF-8 text of at most so many bytes; a byte that starts none is ignored. -/
def utf8Chars : Nat → Bytes → List Char
  | 0, _ => []
  | _, [] => []
  | n + 1, byte :: rest =>
    match (ByteArray.mk (byte :: rest).toArray).utf8DecodeChar? 0 with
    | some c => c :: utf8Chars n ((byte :: rest).drop c.utf8Size)
    | none => utf8Chars n rest

/-- `raw.decode("utf-8", errors="ignore")`. -/
def decodeUtf8 (raw : Bytes) : List Char := utf8Chars raw.length raw

/-- `raw.rstrip(b"\x00")`. -/
def stripNulls (raw : Bytes) : Bytes := (raw.reverse.dropWhile (· = 0)).reverse

/-- `text.strip() or None`. -/
def stripOrNone (text : List Char) : Option String :=
  if strip text = [] then none else some (String.ofList (strip text))

section

variable (codec : OnchainCodec)

def decodeUint8 (data : Bytes) : Option Int := (codec.decodeUint8 data).filter fun value => ¬ (value < 0 ∨ 255 < value)

def decodeSymbol (data : Bytes) : Option String :=
  match (codec.decodeString data).bind fun symbol => stripOrNone symbol.toList with
  | some symbol => some symbol
  | none => (codec.decodeBytes32 data).bind fun raw => stripOrNone (decodeUtf8 (stripNulls raw))

end

/-! ### The request and its answers -/

inductive Field
  | decimals
  | symbol

/-- What is known of an address so far. -/
structure Payload where
  symbol : Option String := none
  decimals : Option Int := none
deriving DecidableEq

def erc20DecimalsSelector : Bytes := [0x31, 0x3c, 0xe5, 0x67]
def erc20SymbolSelector : Bytes := [0x95, 0xd8, 0x9b, 0x41]

def callIndex (addresses : List String) : List (String × Field) :=
  addresses.flatMap fun address => [(address, .decimals), (address, .symbol)]

section

variable (codec : OnchainCodec)

def callsOf (address : String) : Except Exn (List (String × Bool × Bytes)) :=
  (codec.toChecksumAddress address).map fun checksum =>
    [(checksum, true, erc20DecimalsSelector), (checksum, true, erc20SymbolSelector)]

/-- One turn of the loop over the decoded answers. -/
def decodeAnswer (out : Dict String Payload) : (String × Field) × (Bool × Option Bytes) → Dict String Payload
  | ((address, .decimals), (true, some data)) =>
    match decodeUint8 codec data with
    | some decimals => out.set address { out.getD address {} with decimals := some decimals }
    | none => out
  | ((address, .symbol), (true, some data)) =>
    match decodeSymbol codec data with
    | some symbol => out.set address { out.getD address {} with symbol := some symbol }
    | none => out
  | _ => out

def decodeAnswers (addresses : List String) (decoded : List (Bool × Option Bytes)) (out : Dict String Payload) :
    Dict String Payload :=
  ((callIndex addresses).zip decoded).foldl (decodeAnswer codec) out

def metadataOf (chainId : Int) (address : String) (payload : Payload) : Except Exn TokenMetadata :=
  TokenMetadata.new codec.toEthUtils chainId address payload.symbol payload.decimals none (some "onchain_multicall")

def buildResult (chainId : Int) :
    List (String × Payload) → Dict String TokenMetadata → Except Exn (Dict String TokenMetadata)
  | [], result => .ok result
  | (address, payload) :: rest, result => do
    let metadata ← metadataOf codec chainId address payload
    buildResult chainId rest (result.set address metadata)

def fetchOnchainMetadata {σ : Type} (configured : Int → Bool) (call : RpcCall → Eff σ Raised PyObj) (chainId : Int)
    (addresses : List String) : Eff σ Raised (Dict String TokenMetadata) :=
  if addresses = [] ∨ configured chainId = false then pure .empty
  else
    match multicall3ByChain chainId with
    | none => pure .empty
    | some multicallAddress => do
      let calls ← Eff.ofExcept ((addresses.mapM (callsOf codec)).mapError Raised.exception)
      let raw ← call
        { chainId, address := multicallAddress, abi := .multicall3, fnName := "aggregate3"
          args := [.calls calls.flatten] }
      let decoded ← Eff.ofExcept ((VaultAdapter.normalizeMulticallResult raw).mapError Raised.exception)
      let out := decodeAnswers codec addresses decoded .empty
      Eff.ofExcept ((buildResult codec chainId out.items .empty).mapError Raised.exception)

end

/-! ### What is read for an address -/

section Read

variable {codec : OnchainCodec} {chainId : Int}

/-- The decimals in an answer. -/
def decimalsOf (codec : OnchainCodec) : Option (Bool × Option Bytes) → Option Int
  | some (true, some data) => decodeUint8 codec data
  | _ => none

/-- The symbol in an answer. -/
def symbolOf (codec : OnchainCodec) : Option (Bool × Option Bytes) → Option String
  | some (true, some data) => decodeSymbol codec data
  | _ => none

/-- What two answers say of an address, if they say anything. -/
def payloadOf (codec : OnchainCodec) (first second : Option (Bool × Option Bytes)) : Option Payload :=
  match decimalsOf codec first, symbolOf codec second with
  | none, none => none
  | decimals, symbol => some { symbol, decimals }

private theorem decodeAnswer_decimals (out : Dict String Payload) (address : String) (answer : Bool × Option Bytes) :
    decodeAnswer codec out ((address, .decimals), answer) =
      (decimalsOf codec (some answer)).elim out fun decimals =>
        out.set address { out.getD address {} with decimals := some decimals } := by
  obtain ⟨success, data⟩ := answer
  cases success with
  | false => rfl
  | true =>
    cases data with
    | none => rfl
    | some data =>
      simp only [decodeAnswer, decimalsOf]
      cases decodeUint8 codec data <;> rfl

private theorem decodeAnswer_symbol (out : Dict String Payload) (address : String) (answer : Bool × Option Bytes) :
    decodeAnswer codec out ((address, .symbol), answer) =
      (symbolOf codec (some answer)).elim out fun symbol =>
        out.set address { out.getD address {} with symbol := some symbol } := by
  obtain ⟨success, data⟩ := answer
  cases success with
  | false => rfl
  | true =>
    cases data with
    | none => rfl
    | some data =>
      simp only [decodeAnswer, symbolOf]
      cases decodeSymbol codec data <;> rfl

private theorem decodeAnswer_other {out : Dict String Payload} {address other : String} {field : Field}
    {answer : Bool × Option Bytes} (h : other ≠ address) :
    (decodeAnswer codec out ((address, field), answer)).get? other = out.get? other := by
  cases field with
  | decimals =>
    rw [decodeAnswer_decimals]
    cases decimalsOf codec (some answer) with
    | none => rfl
    | some decimals => exact Dict.get?_set_of_ne out h _
  | symbol =>
    rw [decodeAnswer_symbol]
    cases symbolOf codec (some answer) with
    | none => rfl
    | some symbol => exact Dict.get?_set_of_ne out h _

/-- The decimals alone, for an address that nothing is known of. -/
private theorem get?_decodeAnswer_decimals {out : Dict String Payload} {address : String} {first : Bool × Option Bytes}
    (h : out.get? address = none) :
    (decodeAnswer codec out ((address, .decimals), first)).get? address = payloadOf codec (some first) none := by
  rw [decodeAnswer_decimals]
  unfold payloadOf
  cases decimalsOf codec (some first) with
  | none => exact h
  | some decimals =>
    show (out.set address _).get? address = _
    rw [Dict.get?_set_self, Dict.getD, h]
    rfl

/-- Two answers for an address that nothing is known of. -/
private theorem get?_decodeAnswer_pair
    {out : Dict String Payload} {address : String} {first second : Bool × Option Bytes}
    (h : out.get? address = none) :
    (decodeAnswer codec (decodeAnswer codec out ((address, .decimals), first))
      ((address, .symbol), second)).get? address = payloadOf codec (some first) (some second) := by
  have hfirst : (decodeAnswer codec out ((address, .decimals), first)).get? address = _ :=
    get?_decodeAnswer_decimals h
  rw [decodeAnswer_symbol]
  unfold payloadOf at hfirst ⊢
  cases symbolOf codec (some second) with
  | none => exact hfirst
  | some symbol =>
    show (Dict.set _ address _).get? address = _
    rw [Dict.get?_set_self, Dict.getD, hfirst]
    cases decimalsOf codec (some first) <;> rfl

private theorem decodeAnswers_other {addresses : List String} {other : String} (h : other ∉ addresses) :
    ∀ (decoded : List (Bool × Option Bytes)) (out : Dict String Payload),
      (decodeAnswers codec addresses decoded out).get? other = out.get? other := by
  induction addresses with
  | nil => intro decoded out; rfl
  | cons address rest ih =>
    intro decoded out
    have hne : other ≠ address := List.ne_of_not_mem_cons h
    have hrest : other ∉ rest := List.not_mem_of_not_mem_cons h
    match decoded with
    | [] => rfl
    | [first] => exact decodeAnswer_other hne
    | first :: second :: decoded =>
      show (decodeAnswers codec rest decoded (decodeAnswer codec (decodeAnswer codec out ((address, .decimals), first))
        ((address, .symbol), second))).get? other = out.get? other
      rw [ih hrest, decodeAnswer_other hne, decodeAnswer_other hne]

/-- Of each address the answers at its own two positions are read, and no others. -/
private theorem get?_decodeAnswers {addresses : List String} (hnodup : addresses.Nodup) :
    ∀ {decoded : List (Bool × Option Bytes)} {out : Dict String Payload} {i : Nat} {address : String},
      addresses[i]? = some address → out.get? address = none →
      (decodeAnswers codec addresses decoded out).get? address =
        payloadOf codec decoded[2 * i]? decoded[2 * i + 1]? := by
  induction addresses with
  | nil => intro decoded out i address hi; simp at hi
  | cons head rest ih =>
    intro decoded out i address hi hout
    obtain ⟨hhead, hrest⟩ := List.nodup_cons.1 hnodup
    cases i with
    | zero =>
      obtain rfl : head = address := by simpa using hi
      match decoded with
      | [] => exact hout
      | [first] =>
        exact get?_decodeAnswer_decimals hout
      | first :: second :: decoded =>
        show (decodeAnswers codec rest decoded _).get? head = payloadOf codec (some first) (some second)
        rw [decodeAnswers_other hhead, get?_decodeAnswer_pair hout]
    | succ i =>
      have hi' : rest[i]? = some address := by simpa using hi
      have hne : address ≠ head := fun e => hhead (e ▸ List.mem_of_getElem? hi')
      match decoded with
      | [] => exact hout
      | [first] =>
        show (decodeAnswer codec out ((head, .decimals), first)).get? address = _
        rw [decodeAnswer_other hne, hout]
        have hfirst : [first][2 * (i + 1)]? = none := List.getElem?_eq_none (by simp; omega)
        have hsecond : [first][2 * (i + 1) + 1]? = none := List.getElem?_eq_none (by simp)
        rw [hfirst, hsecond]
        rfl
      | first :: second :: decoded =>
        show (decodeAnswers codec rest decoded _).get? address = _
        rw [ih hrest hi' (by rw [decodeAnswer_other hne, decodeAnswer_other hne, hout])]
        have hfirst : (first :: second :: decoded)[2 * (i + 1)]? = decoded[2 * i]? := by
          rw [show 2 * (i + 1) = 2 * i + 1 + 1 by omega, List.getElem?_cons_succ, List.getElem?_cons_succ]
        have hsecond : (first :: second :: decoded)[2 * (i + 1) + 1]? = decoded[2 * i + 1]? := by
          rw [show 2 * (i + 1) + 1 = 2 * i + 1 + 1 + 1 by omega, List.getElem?_cons_succ, List.getElem?_cons_succ]
        rw [hfirst, hsecond]

/-! ### The result -/

private theorem metadataOf_eq_ok (codec : OnchainCodec) (chainId : Int) (address : String) (payload : Payload) :
    (∃ metadata, metadataOf codec chainId address payload = .ok metadata) ↔
      ∃ normalized, normalizeAddress codec.toEthUtils address = .ok normalized := by
  constructor
  · rintro ⟨metadata, h⟩
    obtain ⟨normalized, hn, -⟩ := Eff.except_map_eq_ok.1 h
    exact ⟨normalized, hn⟩
  · rintro ⟨normalized, hn⟩
    exact ⟨_, Eff.except_map_eq_ok.2 ⟨normalized, hn, rfl⟩⟩

/-- The result holds the metadata of what was read, under the address it was read for. -/
private theorem get?_buildResult {items : List (String × Payload)} (hnodup : (items.map Prod.fst).Nodup) :
    ∀ {result result' : Dict String TokenMetadata}, buildResult codec chainId items result = .ok result' →
      ∀ address, result'.get? address = match items.lookup address with
        | some payload => (metadataOf codec chainId address payload).toOption
        | none => result.get? address := by
  induction items with
  | nil =>
    intro result result' h address
    obtain rfl : result = result' := Except.ok.inj h
    rfl
  | cons item rest ih =>
    intro result result' h address
    obtain ⟨head, payload⟩ := item
    obtain ⟨hhead, hrest⟩ := List.nodup_cons.1 hnodup
    obtain ⟨metadata, hmetadata, h⟩ := Eff.except_bind_eq_ok.1 h
    rw [ih hrest h address, List.lookup_cons]
    by_cases he : address = head
    · subst he
      have hnone : rest.lookup address = none := List.lookup_eq_none_iff.2 fun p hp => by
        have hne : address ≠ p.1 := fun e => hhead (List.mem_map.2 ⟨p, hp, e.symm⟩)
        simpa using hne
      rw [hnone, beq_self_eq_true]
      show (result.set address metadata).get? address = (metadataOf codec chainId address payload).toOption
      rw [Dict.get?_set_self, hmetadata]
      rfl
    · have hbeq : (address == head) = false := by simpa using he
      rw [hbeq, Dict.get?_set_of_ne result he]

/-- The loop over the result returns exactly when each address that was read for is accepted. -/
private theorem buildResult_returns_iff {items : List (String × Payload)} :
    ∀ {result : Dict String TokenMetadata}, (∃ result', buildResult codec chainId items result = .ok result') ↔
      ∀ item ∈ items, ∃ normalized, normalizeAddress codec.toEthUtils item.1 = .ok normalized := by
  induction items with
  | nil => intro result; simp [buildResult]
  | cons item rest ih =>
    intro result
    obtain ⟨head, payload⟩ := item
    rw [List.forall_mem_cons, ← metadataOf_eq_ok codec chainId head payload]
    constructor
    · rintro ⟨result', h⟩
      obtain ⟨metadata, hmetadata, h⟩ := Eff.except_bind_eq_ok.1 h
      exact ⟨⟨metadata, hmetadata⟩, ih.1 ⟨result', h⟩⟩
    · rintro ⟨⟨metadata, hmetadata⟩, hrest⟩
      obtain ⟨result', h⟩ := ih.2 hrest
      exact ⟨result', Eff.except_bind_eq_ok.2 ⟨metadata, hmetadata, h⟩⟩

private theorem payloadOf_eq_none_iff {first second : Option (Bool × Option Bytes)} :
    payloadOf codec first second = none ↔ decimalsOf codec first = none ∧ symbolOf codec second = none := by
  unfold payloadOf
  cases decimalsOf codec first with
  | none => cases symbolOf codec second <;> simp
  | some decimals => simp

end Read

/-! ### Objects of a response -/

section Objects

open VaultAdapter

variable {codec : OnchainCodec}

/-- The two parts of an object that is taken for an entry. -/
def entryParts : PyObj → Option (PyObj × PyObj)
  | .dict entries => some (PyObj.get entries "success", PyObj.get entries "returnData")
  | .seq (success :: data :: _) => some (success, data)
  | _ => none

/-- An entry with a success that `bool` raises for. -/
def Raises (item : PyObj) : Prop :=
  ∃ success data e, entryParts item = some (success, data) ∧ success.truth = .error e

/-- An entry of a successful call with data that is read as decimals or as a symbol. -/
def Answers (codec : OnchainCodec) (item : PyObj) : Prop :=
  ∃ success data bytes, entryParts item = some (success, data) ∧ success.truth = .ok true ∧
    returnData data = some bytes ∧ (decodeUint8 codec bytes ≠ none ∨ decodeSymbol codec bytes ≠ none)

private theorem normalizeItem_eq (item : PyObj) :
    normalizeItem item = match entryParts item with
      | some (success, data) => success.truth.map fun success => some (success, returnData data)
      | none => .ok none := by
  cases item with
  | seq items =>
    match items with
    | [] => rfl
    | [_] => rfl
    | _ :: _ :: _ => rfl
  | _ => rfl

private theorem normalizeItem_returns_iff {item : PyObj} : (∃ entry, normalizeItem item = .ok entry) ↔
    ¬ Raises item := by
  rw [normalizeItem_eq]
  unfold Raises
  cases entryParts item with
  | none => simp
  | some parts =>
    obtain ⟨success, data⟩ := parts
    cases htruth : success.truth with
    | error e => simp [Except.map, htruth]
    | ok success => simp [Except.map, htruth]

/-- The answer that an entry becomes; `none` stands for an object that is skipped. -/
private theorem normalizeItem_eq_ok
    {item : PyObj} {entry : Option (Bool × Option Bytes)} (h : normalizeItem item = .ok entry) :
    entry = none ∧ entryParts item = none ∨ ∃ success data truth, entryParts item = some (success, data) ∧
      success.truth = .ok truth ∧ entry = some (truth, returnData data) := by
  rw [normalizeItem_eq] at h
  cases hparts : entryParts item with
  | none =>
    rw [hparts] at h
    obtain rfl : none = entry := Except.ok.inj h
    exact .inl ⟨rfl, rfl⟩
  | some parts =>
    obtain ⟨success, data⟩ := parts
    rw [hparts] at h
    obtain ⟨truth, htruth, he⟩ := Eff.except_map_eq_ok.1 h
    exact .inr ⟨success, data, truth, rfl, htruth, he.symm⟩

private theorem answers_iff {item : PyObj} {answer : Bool × Option Bytes} (h : normalizeItem item = .ok (some answer)) :
    Answers codec item ↔ decimalsOf codec (some answer) ≠ none ∨ symbolOf codec (some answer) ≠ none := by
  obtain ⟨hnone, -⟩ | ⟨success, data, truth, hparts, htruth, hanswer⟩ := normalizeItem_eq_ok h
  · cases hnone
  · obtain rfl : answer = (truth, returnData data) := Option.some.inj hanswer
    constructor
    · rintro ⟨success', data', bytes, hparts', htruth', hdata, hread⟩
      rw [hparts] at hparts'
      cases hparts'
      obtain rfl : truth = true := by simpa [htruth] using htruth'
      rw [hdata]
      exact hread
    · intro hread
      cases truth with
      | false => exact absurd hread (by simp [decimalsOf, symbolOf])
      | true =>
        cases hdata : returnData data with
        | none =>
          rw [hdata] at hread
          exact absurd hread (by simp [decimalsOf, symbolOf])
        | some bytes =>
          rw [hdata] at hread
          exact ⟨success, data, bytes, hparts, htruth, hdata, hread⟩

private theorem normalizeItems_returns_iff {response : List PyObj} :
    (∃ decoded, normalizeItems response = .ok decoded) ↔ ∀ item ∈ response, ¬ Raises item := by
  induction response with
  | nil => simp [normalizeItems]
  | cons item rest ih =>
    rw [List.forall_mem_cons, ← ih, ← normalizeItem_returns_iff]
    constructor
    · rintro ⟨decoded, h⟩
      obtain ⟨entry, hentry, h⟩ := Eff.except_bind_eq_ok.1 h
      obtain ⟨entries, hentries, -⟩ := Eff.except_bind_eq_ok.1 h
      exact ⟨⟨entry, hentry⟩, ⟨entries, hentries⟩⟩
    · rintro ⟨⟨entry, hentry⟩, ⟨entries, hentries⟩⟩
      exact ⟨entry.toList ++ entries,
        Eff.except_bind_eq_ok.2 ⟨entry, hentry, Eff.except_bind_eq_ok.2 ⟨entries, hentries, rfl⟩⟩⟩

/-- Every answer is that of an object of the response. -/
private theorem mem_normalizeItems {response : List PyObj} {decoded : List (Bool × Option Bytes)}
    (h : normalizeItems response = .ok decoded) {answer : Bool × Option Bytes} (hanswer : answer ∈ decoded) :
    ∃ item ∈ response, normalizeItem item = .ok (some answer) := by
  induction response generalizing decoded with
  | nil =>
    obtain rfl : [] = decoded := Except.ok.inj h
    cases hanswer
  | cons item rest ih =>
    obtain ⟨entry, hentry, h⟩ := Eff.except_bind_eq_ok.1 h
    obtain ⟨entries, hentries, h⟩ := Eff.except_bind_eq_ok.1 h
    obtain rfl : entry.toList ++ entries = decoded := Except.ok.inj h
    rw [List.mem_append, Option.mem_toList] at hanswer
    obtain hanswer | hanswer := hanswer
    · obtain rfl : entry = some answer := hanswer
      exact ⟨item, List.mem_cons_self, hentry⟩
    · obtain ⟨item', hitem', he⟩ := ih hentries hanswer
      exact ⟨item', List.mem_cons_of_mem _ hitem', he⟩

/-- Where every object is an entry, the answers keep their positions. -/
private theorem getElem?_normalizeItems {response : List PyObj} {decoded : List (Bool × Option Bytes)}
    (hentries : ∀ item ∈ response, entryParts item ≠ none) (h : normalizeItems response = .ok decoded) (k : Nat) :
    decoded[k]? = response[k]?.bind fun item => (normalizeItem item).toOption.join := by
  induction response generalizing decoded k with
  | nil =>
    obtain rfl : [] = decoded := Except.ok.inj h
    simp
  | cons item rest ih =>
    obtain ⟨hitem, hrest⟩ := List.forall_mem_cons.1 hentries
    obtain ⟨entry, hentry, h⟩ := Eff.except_bind_eq_ok.1 h
    obtain ⟨entries, hdecoded, h⟩ := Eff.except_bind_eq_ok.1 h
    obtain rfl : entry.toList ++ entries = decoded := Except.ok.inj h
    obtain ⟨-, hnone⟩ | ⟨success, data, truth, -, -, rfl⟩ := normalizeItem_eq_ok hentry
    · exact absurd hnone hitem
    · cases k with
      | zero => simp [hentry, Except.toOption]
      | succ k => simpa using ih hrest hdecoded k

end Objects

/-! ### Two responses -/

section Responses

open VaultAdapter

variable (codec : OnchainCodec)

/-- What a response gives for an address; `none` stands for a call that raises. -/
def metadataFor (configured : Int → Bool) (chainId : Int) (addresses : List String) (response : List PyObj)
    (address : String) : Option (Option TokenMetadata) :=
  let call : RpcCall → Eff Unit Raised PyObj := fun _ => pure (.seq response)
  (fetchOnchainMetadata codec configured call chainId addresses ()).1.toOption.map fun result => result.get? address

def Checksummable (address : String) : Prop := ∃ checksum, codec.toChecksumAddress address = .ok checksum

/-- The address passes the validator of `TokenMetadata`. -/
def Accepted (address : String) : Prop := ∃ normalized, normalizeAddress codec.toEthUtils address = .ok normalized

/-- For lists of these tokens and responses of these objects, two responses that agree on the entries of an address
give the same for it. -/
def AttributedOver (configured : Int → Bool) (chainId : Int) (tokens : String → Prop) (objects : PyObj → Prop) : Prop :=
  ∀ addresses : List String, addresses.Nodup → (∀ address ∈ addresses, tokens address) →
    ∀ (i : Nat) (address : String), addresses[i]? = some address →
      ∀ response response' : List PyObj, (∀ item ∈ response, objects item) → (∀ item ∈ response', objects item) →
        response[2 * i]? = response'[2 * i]? → response[2 * i + 1]? = response'[2 * i + 1]? →
        metadataFor codec configured chainId addresses response address =
          metadataFor codec configured chainId addresses response' address

/-- No object raises; and every object is an entry and every token is accepted, or there is nothing to read. -/
structure Aligned (tokens : String → Prop) (objects : PyObj → Prop) : Prop where
  quiet : ∀ item, objects item → ¬ Raises item
  placed : (∀ item, objects item → entryParts item ≠ none) ∧
      (∀ address, tokens address → Checksummable codec address → Accepted codec address) ∨
    ∀ item, objects item → ¬ Answers codec item

variable {codec} {configured : Int → Bool} {chainId : Int} {addresses : List String} {response : List PyObj}

/-- The chain is asked. -/
def ChainAsked (configured : Int → Bool) (chainId : Int) : Prop :=
  configured chainId = true ∧ ∃ target, multicall3ByChain chainId = some target

private theorem not_asked_iff :
    ¬ ChainAsked configured chainId ↔ configured chainId = false ∨ multicall3ByChain chainId = none := by
  unfold ChainAsked
  rw [not_and_or, Bool.not_eq_true, ← Option.isSome_iff_exists, Option.not_isSome_iff_eq_none]

private theorem metadataFor_not_asked (h : ¬ ChainAsked configured chainId) (address : String) :
    metadataFor codec configured chainId addresses response address = some none := by
  have hfetch (call : RpcCall → Eff Unit Raised PyObj) :
      fetchOnchainMetadata codec configured call chainId addresses = pure .empty := by
    unfold fetchOnchainMetadata
    obtain hconfigured | htarget := not_asked_iff.1 h
    · exact if_pos (.inr hconfigured)
    · rw [htarget]
      exact ite_self _
  unfold metadataFor
  dsimp only
  rw [hfetch]
  rfl

private theorem fetchOnchainMetadata_asked (codec : OnchainCodec) (hasked : ChainAsked configured chainId)
    (hne : addresses ≠ []) (call : RpcCall → Eff Unit Raised PyObj) :
    ∃ target, fetchOnchainMetadata codec configured call chainId addresses = (do
      let calls ← Eff.ofExcept ((addresses.mapM (callsOf codec)).mapError Raised.exception)
      let raw ← call
        { chainId, address := target, abi := .multicall3, fnName := "aggregate3", args := [.calls calls.flatten] }
      let decoded ← Eff.ofExcept ((normalizeMulticallResult raw).mapError Raised.exception)
      let out := decodeAnswers codec addresses decoded .empty
      Eff.ofExcept ((buildResult codec chainId out.items .empty).mapError Raised.exception)) := by
  obtain ⟨hconfigured, target, htarget⟩ := hasked
  have hskip : ¬ (addresses = [] ∨ configured chainId = false) := by
    rw [hconfigured]
    simp [hne]
  refine ⟨target, ?_⟩
  unfold fetchOnchainMetadata
  rw [if_neg hskip, htarget]

private theorem metadataFor_unchecksummable
    (hasked : ChainAsked configured chainId) {bad : String} (hbad : bad ∈ addresses)
    (h : ¬ Checksummable codec bad) (address : String) :
    metadataFor codec configured chainId addresses response address = none := by
  obtain ⟨target, hfetch⟩ := fetchOnchainMetadata_asked codec hasked (List.ne_nil_of_mem hbad)
    fun _ => pure (.seq response)
  unfold metadataFor
  dsimp only
  rw [hfetch]
  cases hcalls : addresses.mapM (callsOf codec) with
  | error e => rfl
  | ok calls =>
    obtain ⟨call, hcall⟩ := Eff.mapM_ok_iff.1 ⟨calls, hcalls⟩ bad hbad
    obtain ⟨checksum, hchecksum, -⟩ := Eff.except_map_eq_ok.1 hcall
    exact absurd ⟨checksum, hchecksum⟩ h

private theorem metadataFor_checksummable (hasked : ChainAsked configured chainId) (hne : addresses ≠ [])
    (h : ∀ address ∈ addresses, Checksummable codec address) (address : String) :
    metadataFor codec configured chainId addresses response address =
      (normalizeItems response).toOption.bind fun decoded =>
        (buildResult codec chainId (decodeAnswers codec addresses decoded .empty).items .empty).toOption.map
          fun result => result.get? address := by
  obtain ⟨target, hfetch⟩ := fetchOnchainMetadata_asked codec hasked hne fun _ => pure (.seq response)
  obtain ⟨calls, hcalls⟩ : ∃ calls, addresses.mapM (callsOf codec) = .ok calls := by
    refine Eff.mapM_ok_iff.2 fun address' haddress => ?_
    obtain ⟨checksum, hchecksum⟩ := h address' haddress
    exact ⟨_, Eff.except_map_eq_ok.2 ⟨checksum, hchecksum, rfl⟩⟩
  unfold metadataFor
  dsimp only
  rw [hfetch, hcalls]
  show (Eff.bind (Eff.ofExcept ((normalizeItems response).mapError Raised.exception)) _ ()).1.toOption.map _ = _
  cases normalizeItems response with
  | error e => rfl
  | ok decoded =>
    show ((buildResult codec chainId (decodeAnswers codec addresses decoded .empty).items .empty).mapError
      Raised.exception).toOption.map _ = (buildResult codec chainId _ .empty).toOption.map _
    cases buildResult codec chainId (decodeAnswers codec addresses decoded .empty).items .empty <;> rfl

private theorem mem_decodeAnswers (hnodup : addresses.Nodup) {decoded : List (Bool × Option Bytes)} {address : String}
    {payload : Payload} (h : (address, payload) ∈ (decodeAnswers codec addresses decoded .empty).items) :
    ∃ i, addresses[i]? = some address ∧ payloadOf codec decoded[2 * i]? decoded[2 * i + 1]? = some payload := by
  have hget := Dict.get?_eq_some.2 h
  have hmem : address ∈ addresses := by
    by_contra hnot
    rw [decodeAnswers_other hnot] at hget
    cases hget
  obtain ⟨i, hi⟩ := List.mem_iff_getElem?.1 hmem
  refine ⟨i, hi, ?_⟩
  rw [← get?_decodeAnswers hnodup hi (Dict.get?_empty address)]
  exact hget

/-- Where every token is accepted, an address gets what is read at its own two answers. -/
private theorem metadataFor_read (hasked : ChainAsked configured chainId) (hnodup : addresses.Nodup)
    (hchecksummable : ∀ address ∈ addresses, Checksummable codec address)
    (haccepted : ∀ address ∈ addresses, Accepted codec address) {decoded : List (Bool × Option Bytes)}
    (hdecoded : normalizeItems response = .ok decoded) {i : Nat} {address : String}
    (hi : addresses[i]? = some address) :
    metadataFor codec configured chainId addresses response address =
      some ((payloadOf codec decoded[2 * i]? decoded[2 * i + 1]?).bind fun payload =>
        (metadataOf codec chainId address payload).toOption) := by
  have hne : addresses ≠ [] := List.ne_nil_of_mem (List.mem_of_getElem? hi)
  rw [metadataFor_checksummable hasked hne hchecksummable, hdecoded]
  obtain ⟨result, hresult⟩ : ∃ result, buildResult codec chainId (decodeAnswers codec addresses decoded .empty).items
      .empty = .ok result := by
    refine buildResult_returns_iff.2 fun item hitem => ?_
    obtain ⟨j, hj, -⟩ := mem_decodeAnswers hnodup hitem
    exact haccepted item.1 (List.mem_of_getElem? hj)
  have hread : (decodeAnswers codec addresses decoded .empty).get? address = _ :=
    get?_decodeAnswers hnodup hi (Dict.get?_empty address)
  have hget := get?_buildResult (decodeAnswers codec addresses decoded .empty).nodup hresult address
  show (buildResult codec chainId _ .empty).toOption.map (fun result => result.get? address) = _
  rw [hresult, ← hread]
  show some (result.get? address) = some (((decodeAnswers codec addresses decoded .empty).items.lookup address).bind _)
  rw [hget]
  cases (decodeAnswers codec addresses decoded .empty).items.lookup address <;> rfl

/-- Where nothing is read, nothing is returned for any address. -/
private theorem metadataFor_silent
    (hasked : ChainAsked configured chainId) (hnodup : addresses.Nodup) (hne : addresses ≠ [])
    (hchecksummable : ∀ address ∈ addresses, Checksummable codec address) {decoded : List (Bool × Option Bytes)}
    (hdecoded : normalizeItems response = .ok decoded)
    (hsilent : ∀ answer ∈ decoded, decimalsOf codec (some answer) = none ∧ symbolOf codec (some answer) = none)
    (address : String) :
    metadataFor codec configured chainId addresses response address = some none := by
  have hanswer (k : Nat) : decimalsOf codec decoded[k]? = none ∧ symbolOf codec decoded[k]? = none := by
    cases hk : decoded[k]? with
    | none => exact ⟨rfl, rfl⟩
    | some answer => exact hsilent answer (List.mem_of_getElem? hk)
  have hempty : (decodeAnswers codec addresses decoded .empty).items = [] := by
    refine List.eq_nil_iff_forall_not_mem.2 fun item hitem => ?_
    obtain ⟨i, -, hread⟩ := mem_decodeAnswers hnodup hitem
    rw [payloadOf_eq_none_iff.2 ⟨(hanswer _).1, (hanswer _).2⟩] at hread
    cases hread
  rw [metadataFor_checksummable hasked hne hchecksummable, hdecoded]
  show (buildResult codec chainId (decodeAnswers codec addresses decoded .empty).items .empty).toOption.map _ = _
  rw [hempty]
  rfl

/-- One token that is read for and not accepted loses the whole result. -/
private theorem metadataFor_rejected (hasked : ChainAsked configured chainId) (hnodup : addresses.Nodup)
    (hchecksummable : ∀ address ∈ addresses, Checksummable codec address) {decoded : List (Bool × Option Bytes)}
    (hdecoded : normalizeItems response = .ok decoded) {i : Nat} {bad : String} (hi : addresses[i]? = some bad)
    (hbad : ¬ Accepted codec bad) (hread : payloadOf codec decoded[2 * i]? decoded[2 * i + 1]? ≠ none)
    (address : String) :
    metadataFor codec configured chainId addresses response address = none := by
  have hne : addresses ≠ [] := List.ne_nil_of_mem (List.mem_of_getElem? hi)
  rw [metadataFor_checksummable hasked hne hchecksummable, hdecoded]
  show (buildResult codec chainId (decodeAnswers codec addresses decoded .empty).items .empty).toOption.map _ = _
  cases hresult : buildResult codec chainId (decodeAnswers codec addresses decoded .empty).items .empty with
  | error e => rfl
  | ok result =>
    obtain ⟨payload, hpayload⟩ := Option.ne_none_iff_exists'.1 hread
    have hget : (decodeAnswers codec addresses decoded .empty).get? bad = some payload := by
      rw [get?_decodeAnswers hnodup hi (Dict.get?_empty bad), hpayload]
    exact absurd (buildResult_returns_iff.1 ⟨result, hresult⟩ _ (Dict.get?_eq_some.1 hget)) hbad

private theorem metadataFor_raises (hasked : ChainAsked configured chainId) (hne : addresses ≠ [])
    (hchecksummable : ∀ address ∈ addresses, Checksummable codec address) {item : PyObj} (hitem : item ∈ response)
    (hraises : Raises item) (address : String) :
    metadataFor codec configured chainId addresses response address = none := by
  rw [metadataFor_checksummable hasked hne hchecksummable]
  cases hdecoded : normalizeItems response with
  | error e => rfl
  | ok decoded => exact absurd hraises (normalizeItems_returns_iff.1 ⟨decoded, hdecoded⟩ item hitem)

variable {tokens : String → Prop} {objects : PyObj → Prop}

private theorem attributedOver_of_aligned (hasked : ChainAsked configured chainId) (h : Aligned codec tokens objects) :
    AttributedOver codec configured chainId tokens objects := by
  intro addresses hnodup htokens i address hi response response' hobjects hobjects' hfirst hsecond
  have hmem : address ∈ addresses := List.mem_of_getElem? hi
  by_cases hchecksummable : ∀ address ∈ addresses, Checksummable codec address
  · obtain ⟨decoded, hdecoded⟩ := normalizeItems_returns_iff.2 fun item hitem => h.quiet item (hobjects item hitem)
    obtain ⟨decoded', hdecoded'⟩ := normalizeItems_returns_iff.2 fun item hitem => h.quiet item (hobjects' item hitem)
    obtain ⟨hentries, hvalid⟩ | hnothing := h.placed
    · have haccepted : ∀ address ∈ addresses, Accepted codec address := fun address haddress =>
        hvalid address (htokens address haddress) (hchecksummable address haddress)
      have hplace := getElem?_normalizeItems (fun item hitem => hentries item (hobjects item hitem)) hdecoded
      have hplace' := getElem?_normalizeItems (fun item hitem => hentries item (hobjects' item hitem)) hdecoded'
      rw [metadataFor_read hasked hnodup hchecksummable haccepted hdecoded hi,
        metadataFor_read hasked hnodup hchecksummable haccepted hdecoded' hi, hplace, hplace, hplace', hplace', hfirst,
        hsecond]
    · have hsilent {response : List PyObj} {decoded : List (Bool × Option Bytes)}
          (hobjects : ∀ item ∈ response, objects item) (hdecoded : normalizeItems response = .ok decoded) :
          ∀ answer ∈ decoded, decimalsOf codec (some answer) = none ∧ symbolOf codec (some answer) = none := by
        intro answer hanswer
        obtain ⟨item, hitem, hnormal⟩ := mem_normalizeItems hdecoded hanswer
        have hnot := hnothing item (hobjects item hitem)
        rw [answers_iff hnormal, not_or, not_not, not_not] at hnot
        exact hnot
      have hne : addresses ≠ [] := List.ne_nil_of_mem hmem
      rw [metadataFor_silent hasked hnodup hne hchecksummable hdecoded (hsilent hobjects hdecoded),
        metadataFor_silent hasked hnodup hne hchecksummable hdecoded' (hsilent hobjects' hdecoded')]
  · rw [not_forall] at hchecksummable
    obtain ⟨bad, hbad⟩ := hchecksummable
    rw [Classical.not_imp] at hbad
    rw [metadataFor_unchecksummable hasked hbad.1 hbad.2, metadataFor_unchecksummable hasked hbad.1 hbad.2]

/-- The empty response gives nothing. -/
private theorem metadataFor_nil
    (hasked : ChainAsked configured chainId) (hnodup : addresses.Nodup) (hne : addresses ≠ [])
    (hchecksummable : ∀ address ∈ addresses, Checksummable codec address) (address : String) :
    metadataFor codec configured chainId addresses [] address = some none :=
  metadataFor_silent hasked hnodup hne hchecksummable rfl (fun _ h => absurd h List.not_mem_nil) address

private theorem normalizeItem_of_answers {item : PyObj} (h : Answers codec item) :
    ∃ answer, normalizeItem item = .ok (some answer) ∧
      payloadOf codec (some answer) (some answer) ≠ none := by
  obtain ⟨success, data, bytes, hparts, htruth, hdata, hread⟩ := id h
  have hnormal : normalizeItem item = .ok (some (true, returnData data)) := by
    rw [normalizeItem_eq, hparts]
    show success.truth.map _ = _
    rw [htruth]
    rfl
  refine ⟨_, hnormal, ?_⟩
  rw [Ne, payloadOf_eq_none_iff, not_and_or]
  exact (answers_iff hnormal).1 h

section Witnesses

variable {a b : String} (hasked : ChainAsked configured chainId)
  (hattributed : AttributedOver codec configured chainId tokens objects)

include hasked hattributed

/-- An object that raises takes the metadata of every address away. -/
private theorem not_raises_of_attributed (hne : a ≠ b) (ha : tokens a ∧ Checksummable codec a)
    (hb : tokens b ∧ Checksummable codec b) {item : PyObj} (hitem : objects item) : ¬ Raises item := by
  intro hraises
  have hnodup : [a, b].Nodup := by simp [hne]
  have hchecksummable : ∀ address ∈ [a, b], Checksummable codec address := by simp [ha.2, hb.2]
  have hsame := hattributed [a, b] hnodup (by simp [ha.1, hb.1]) 1 b rfl [] [item] (by simp) (by simp [hitem]) rfl rfl
  rw [metadataFor_nil hasked hnodup (List.cons_ne_nil a [b]) hchecksummable,
    metadataFor_raises hasked (List.cons_ne_nil a [b]) hchecksummable List.mem_cons_self hraises] at hsame
  cases hsame

/-- Behind two objects that are skipped, the answers of another address are read. -/
private theorem entryParts_of_attributed
    (ha : tokens a ∧ Checksummable codec a) (haccepted : Accepted codec a) {item : PyObj}
    (hitem : objects item) (hanswers : Answers codec item) (skipped : PyObj) (hskipped : objects skipped) :
    entryParts skipped ≠ none := by
  intro hparts
  obtain ⟨answer, hnormal, hread⟩ := normalizeItem_of_answers hanswers
  have hnone : normalizeItem skipped = .ok none := by rw [normalizeItem_eq, hparts]
  have hnodup : [a].Nodup := List.nodup_singleton a
  have hchecksummable : ∀ address ∈ [a], Checksummable codec address := by simp [ha.2]
  have hshifted : normalizeItems [skipped, skipped, item, item] = .ok [answer, answer] := by
    simp only [normalizeItems, hnone, hnormal]
    rfl
  have hsilent : normalizeItems [skipped, skipped] = .ok [] := by
    simp only [normalizeItems, hnone]
    rfl
  have hsame := hattributed [a] hnodup (by simp [ha.1]) 0 a rfl [skipped, skipped, item, item] [skipped, skipped]
    (by simp [hskipped, hitem]) (by simp [hskipped]) rfl rfl
  rw [metadataFor_read hasked hnodup hchecksummable (by simp [haccepted]) hshifted (i := 0) rfl,
    metadataFor_read hasked hnodup hchecksummable (by simp [haccepted]) hsilent (i := 0) rfl] at hsame
  obtain ⟨payload, hpayload⟩ := Option.ne_none_iff_exists'.1 hread
  obtain ⟨metadata, hmetadata⟩ := (metadataOf_eq_ok codec chainId a payload).2 haccepted
  have hleft : payloadOf codec [answer, answer][2 * 0]? [answer, answer][2 * 0 + 1]? = some payload := hpayload
  have hright : payloadOf codec ([] : List (Bool × Option Bytes))[2 * 0]?
    ([] : List (Bool × Option Bytes))[2 * 0 + 1]? = none := rfl
  rw [hleft, hright, Option.bind_some, hmetadata] at hsame
  cases hsame

/-- A token that is read for and not accepted takes the answers of the others away. -/
private theorem accepted_of_attributed
    (ha : tokens a ∧ Checksummable codec a) (haccepted : Accepted codec a) {item : PyObj}
    (hitem : objects item) (hanswers : Answers codec item) {bad : String}
    (hbad : tokens bad ∧ Checksummable codec bad) : Accepted codec bad := by
  by_contra hnot
  obtain ⟨answer, hnormal, hread⟩ := normalizeItem_of_answers hanswers
  have hne : bad ≠ a := fun e => hnot (e ▸ haccepted)
  have hnodup : [bad, a].Nodup := by simp [hne]
  have hchecksummable : ∀ address ∈ [bad, a], Checksummable codec address := by simp [ha.2, hbad.2]
  have hdecoded : normalizeItems [item, item] = .ok [answer, answer] := by
    simp only [normalizeItems, hnormal]
    rfl
  have hsame := hattributed [bad, a] hnodup (by simp [ha.1, hbad.1]) 1 a rfl [] [item, item] (by simp) (by simp [hitem])
    rfl rfl
  rw [metadataFor_nil hasked hnodup (List.cons_ne_nil bad [a]) hchecksummable,
    metadataFor_rejected hasked hnodup hchecksummable hdecoded (i := 0) rfl hnot hread] at hsame
  cases hsame

end Witnesses

/-- What `web3` decodes a response of the contract to. -/
def IsTuple (item : PyObj) : Prop := ∃ success data, item = .seq [.bool success, .bytes data]

theorem aligned_tuples (haccepted : ∀ address, tokens address → Accepted codec address) :
    Aligned codec tokens IsTuple where
  quiet := by
    rintro item ⟨success, data, rfl⟩ ⟨success', data', e, hparts, htruth⟩
    cases hparts
    cases htruth
  placed := by
    refine .inl ⟨?_, fun address haddress _ => haccepted address haddress⟩
    rintro item ⟨success, data, rfl⟩ hparts
    cases hparts

end Responses

end OnchainMetadata

open OnchainMetadata

/-- The metadata of an address depends on its own two entries exactly when no object raises and, unless there is
nothing to read, no object is skipped and no token rejected. -/
theorem onchain_metadata_attributed_iff (codec : OnchainCodec) (configured : Int → Bool) (chainId : Int)
    (tokens : String → Prop) (objects : PyObj → Prop) {a b : String} (hne : a ≠ b)
    (ha : tokens a ∧ Checksummable codec a ∧ Accepted codec a) (hb : tokens b ∧ Checksummable codec b) :
    AttributedOver codec configured chainId tokens objects ↔
      ¬ ChainAsked configured chainId ∨ Aligned codec tokens objects := by
  obtain ⟨hta, hca, haccepted⟩ := ha
  constructor
  · intro hattributed
    rw [or_iff_not_imp_left, not_not]
    intro hasked
    refine ⟨fun item hitem => not_raises_of_attributed hasked hattributed hne ⟨hta, hca⟩ hb hitem, ?_⟩
    by_cases hanswers : ∃ item, objects item ∧ Answers codec item
    · obtain ⟨item, hitem, hanswer⟩ := hanswers
      left
      constructor
      · intro skipped hskipped
        exact entryParts_of_attributed hasked hattributed ⟨hta, hca⟩ haccepted hitem hanswer skipped hskipped
      · intro bad hbad hchecksummable
        exact accepted_of_attributed hasked hattributed ⟨hta, hca⟩ haccepted hitem hanswer ⟨hbad, hchecksummable⟩
    · right
      intro item hitem hanswer
      exact hanswers ⟨item, hitem, hanswer⟩
  · intro h
    obtain hnot | haligned := h
    · intro addresses _ _ i address _ response response' _ _ _ _
      rw [metadataFor_not_asked hnot, metadataFor_not_asked hnot]
    · by_cases hasked : ChainAsked configured chainId
      · exact attributedOver_of_aligned hasked haligned
      · intro addresses _ _ i address _ response response' _ _ _ _
        rw [metadataFor_not_asked hasked, metadataFor_not_asked hasked]

namespace Example

def daiAddress : String := "0x6B175474E89094C44Da98b954EedeAC495271d0F"

def tetherAddress : String := "0xdAC17F958D2ee523a2206206994597C13D831ec7"

/-- The library on two checksum addresses and on single words. -/
def wordCodec : OnchainCodec where
  isAddress address := address = daiAddress ∨ address = tetherAddress
  toChecksumAddress := .ok
  decodeUint8 data :=
    if data.length < 32 ∨ (data.take 31).any (· ≠ 0) then none else data[31]?.map fun byte => byte.toNat
  decodeString _ := none
  decodeBytes32 data := if data.length < 32 then none else some (data.take 32)

private theorem dai_accepted : Accepted wordCodec daiAddress := ⟨daiAddress, by decide +kernel⟩

private theorem tether_accepted : Accepted wordCodec tetherAddress := ⟨tetherAddress, by decide +kernel⟩

/-- The answer of a token with 18 decimals. -/
def eighteen : PyObj := .seq [.bool true, .bytes (toBytes32 18)]

private theorem eighteen_answers : Answers wordCodec eighteen :=
  ⟨_, _, toBytes32 18, rfl, rfl, rfl, .inl (by decide +kernel)⟩

end Example

theorem onchain_metadata_attributed_tuples :
    AttributedOver Example.wordCodec (fun _ => true) 1
      (fun address => address = Example.daiAddress ∨ address = Example.tetherAddress) IsTuple := by
  have hne : Example.daiAddress ≠ Example.tetherAddress := by decide +kernel
  refine (onchain_metadata_attributed_iff Example.wordCodec _ 1 _ IsTuple hne
    ⟨.inl rfl, ⟨_, rfl⟩, Example.dai_accepted⟩ ⟨.inr rfl, ⟨_, rfl⟩⟩).2 (.inr (aligned_tuples ?_))
  rintro address (rfl | rfl)
  · exact Example.dai_accepted
  · exact Example.tether_accepted

example :
    metadataFor Example.wordCodec (fun _ => true) 1 [Example.daiAddress]
        [.none, .none, Example.eighteen, .seq [.bool false, .none]] Example.daiAddress =
      some (some { chainId := 1, address := Example.daiAddress, decimals := some 18
                   source := some "onchain_multicall" }) := by
  decide +kernel

/-- Two objects that are no entries move the answer of another call to the first address. -/
theorem onchain_metadata_not_always_attributed :
    ¬ ∀ (codec : OnchainCodec) (configured : Int → Bool) (chainId : Int),
      AttributedOver codec configured chainId (fun _ => True) fun _ => True := by
  intro h
  have hasked : ChainAsked (fun _ => true) 1 := ⟨rfl, _, rfl⟩
  have hdai : True ∧ Checksummable Example.wordCodec Example.daiAddress := ⟨trivial, _, rfl⟩
  exact entryParts_of_attributed hasked (h Example.wordCodec (fun _ => true) 1) hdai Example.dai_accepted trivial
    Example.eighteen_answers .none trivial rfl

end TokenPriceAgg
