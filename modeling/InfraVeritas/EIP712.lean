import InfraVeritas.Canonical
import InfraVeritas.DomainSeparator
import InfraVeritas.Lib.Hex

/-!
# EIP-712 digests

The ABI encoder of `hal/eip712.py` and the three hashes it feeds, against those of V3. The byte strings are
named on both sides (`domainEncoding` and `V3.domainPreimage`, and so on), so that agreement is about what is
hashed and not about the hashes. Ten words of 32 bytes determine the values in them, which binds a digest to
the fields, the chain and the contract.
-/

namespace InfraVeritas
open BigEndian Checks

/-! ### `hal/eip712.py` -/

namespace Edge

structure PublicInputs where
  deviceId : Int
  sessionId : Int
  epochStartTs : Int
  lat_e7 : Int
  lon_e7 : Int
  lightLevel : Int
  tamperFlag : Int
  payloadHash : Bytes
  totalEnergyMWh : Int
deriving DecidableEq, Repr

/-- `_encode_uint`. -/
def encodeUint (value : Int) : Except PyError Bytes := do
  revertIf (value < 0) (.valueError s!"uint must be non-negative, got {value}")
  toBytes32 value.toNat

/-- `_encode_int`. -/
def encodeInt (value : Int) : Except PyError Bytes :=
  if -2 ^ 255 ≤ value ∧ value < 2 ^ 255 then .ok (toBE 32 (value % 2 ^ 256).toNat) else .error .overflowError

/-- `_encode_bytes32`. -/
def encodeBytes32 (value : Bytes) : Except PyError Bytes := do
  let n := value.length
  revertIf (n ≠ 32) (.valueError s!"bytes32 must be 32 bytes, got {n}")
  return value

/-- ASCII whitespace. -/
def isSpace (c : Char) : Bool := c ∈ [' ', '\t', '\n', '\x0b', '\x0c', '\r']

/-- `bytes.fromhex` of lowercase text: whitespace before a byte is skipped. -/
def fromhex : List Char → Option Bytes
  | [] => some []
  | [c] => if isSpace c then some [] else none
  | c :: d :: cs =>
    if isSpace c then fromhex (d :: cs)
    else if Hex.isHexDigit c && Hex.isHexDigit d then
      (fromhex cs).map (UInt8.ofNat (16 * Hex.hexValue c + Hex.hexValue d) :: ·)
    else none

/-- `_encode_address`. Letters outside ASCII are left as they are; `fromhex` refuses them either way. -/
def encodeAddress (addr : String) : Except PyError Bytes := do
  let s := addr.toList.map Char.toLower
  let s := if ['0', 'x'].isPrefixOf s then s.drop 2 else s
  let n := s.length
  revertIf (n ≠ 40) (.valueError s!"address must be 20 bytes (40 hex chars), got {n}")
  match fromhex s with
  | some bs => return List.replicate 12 0 ++ bs
  | none => throw (.valueError "non-hexadecimal number found in fromhex() arg")

variable (keccak : Bytes → Bytes32)

def keccak256 (data : Bytes) : Bytes := wordBytes (keccak data)

def EIP712_DOMAIN_TYPEHASH : Bytes :=
  keccak256 keccak "EIP712Domain(string name,string version,uint256 chainId,address verifyingContract)".toUTF8.toList

def ENERGY_PROOF_TYPEHASH : Bytes :=
  keccak256 keccak ("EnergyProof(uint64 deviceId,uint64 sessionId,uint64 epochStartTs,int64 lat_e7,int64 lon_e7," ++
    "uint64 lightLevel,uint64 tamperFlag,bytes32 payloadHash,uint64 totalEnergyMWh)").toUTF8.toList

def DOMAIN_NAME_HASH : Bytes := keccak256 keccak "InfraVeritas Energy".toUTF8.toList
def DOMAIN_VERSION_HASH : Bytes := keccak256 keccak "1".toUTF8.toList

/-- What `compute_domain_separator` hashes. -/
def domainEncoding (chain_id : Int) (verifying_contract : String) : Except PyError Bytes := do
  let typehash ← encodeBytes32 (EIP712_DOMAIN_TYPEHASH keccak)
  let name ← encodeBytes32 (DOMAIN_NAME_HASH keccak)
  let version ← encodeBytes32 (DOMAIN_VERSION_HASH keccak)
  let chain ← encodeUint chain_id
  let contract ← encodeAddress verifying_contract
  return typehash ++ name ++ version ++ chain ++ contract

def computeDomainSeparator (chain_id : Int) (verifying_contract : String) : Except PyError Bytes := do
  let encoded ← domainEncoding keccak chain_id verifying_contract
  return keccak256 keccak encoded

/-- What `compute_struct_hash` hashes. -/
def structEncoding (public_inputs : PublicInputs) : Except PyError Bytes := do
  let typehash ← encodeBytes32 (ENERGY_PROOF_TYPEHASH keccak)
  let deviceId ← encodeUint public_inputs.deviceId
  let sessionId ← encodeUint public_inputs.sessionId
  let epochStartTs ← encodeUint public_inputs.epochStartTs
  let lat_e7 ← encodeInt public_inputs.lat_e7
  let lon_e7 ← encodeInt public_inputs.lon_e7
  let lightLevel ← encodeUint public_inputs.lightLevel
  let tamperFlag ← encodeUint public_inputs.tamperFlag
  let payloadHash ← encodeBytes32 public_inputs.payloadHash
  let totalEnergyMWh ← encodeUint public_inputs.totalEnergyMWh
  return typehash ++ deviceId ++ sessionId ++ epochStartTs ++ lat_e7 ++ lon_e7 ++ lightLevel ++ tamperFlag ++
    payloadHash ++ totalEnergyMWh

def computeStructHash (public_inputs : PublicInputs) : Except PyError Bytes := do
  let encoded ← structEncoding keccak public_inputs
  return keccak256 keccak encoded

/-- What `compute_eip712_digest` hashes. -/
def digestEncoding (public_inputs : PublicInputs) (chain_id : Int) (verifying_contract : String) :
    Except PyError Bytes := do
  let domain_sep ← computeDomainSeparator keccak chain_id verifying_contract
  let struct_hash ← computeStructHash keccak public_inputs
  return [0x19, 0x01] ++ domain_sep ++ struct_hash

def computeEip712Digest (public_inputs : PublicInputs) (chain_id : Int) (verifying_contract : String) :
    Except PyError Bytes := do
  let encoded ← digestEncoding keccak public_inputs chain_id verifying_contract
  return keccak256 keccak encoded

end Edge

/-! ### What V3 hashes -/

namespace V3
variable (keccak : Bytes → Bytes32)

def domainPreimage (env : Env) : Bytes :=
  abiEncode [EIP712_DOMAIN_TYPEHASH keccak, DOMAIN_NAME_HASH keccak, DOMAIN_VERSION_HASH keccak,
    env.chainid, addressWord env.self]

def structPreimage (pi : PublicInputs) : Bytes := abiEncode (ENERGY_PROOF_TYPEHASH keccak :: encodePublicInputs pi)

def digestPreimage (env : Env) (s : V3State) (pi : PublicInputs) : Bytes :=
  [0x19, 0x01] ++ wordBytes (domainSeparator keccak env s) ++ wordBytes (structHash keccak pi)

theorem buildDomainSeparator_eq (env : Env) : buildDomainSeparator keccak env = keccak (domainPreimage keccak env) := rfl

theorem structHash_eq (pi : PublicInputs) : structHash keccak pi = keccak (structPreimage keccak pi) := rfl

theorem eip712Digest_eq (env : Env) (s : V3State) (pi : PublicInputs) :
    eip712Digest keccak env s pi = keccak (digestPreimage keccak env s pi) := rfl

end V3

/-! ### The encoders -/

namespace Edge
variable {keccak : Bytes → Bytes32}

theorem toBytes32_word (w : Bytes32) : toBytes32 w.toNat = .ok (wordBytes w) := by
  have hlt : w.toNat < 256 ^ 32 := w.isLt
  rw [toBytes32, if_pos hlt, wordBytes]

theorem encodeUint_word (w : Bytes32) : encodeUint w.toNat = .ok (wordBytes w) := by
  have hnot : ¬ ((w.toNat : Int) < 0) := by omega
  rw [encodeUint, revertIf_of_not hnot, ok_bind, Int.toNat_natCast, toBytes32_word]

theorem encodeUint_u64 (x : U64) : encodeUint x.toNat = .ok (wordBytes (bytes32OfU64 x)) := by
  rw [← toNat_bytes32OfU64, encodeUint_word]

/-- Two's complement in 256 bits is the sign extension of two's complement in 64. -/
theorem encodeInt_i64 (x : I64) : encodeInt x.toInt = .ok (wordBytes (bytes32OfI64 x)) := by
  have hlo : -2 ^ 63 ≤ x.toInt := BitVec.le_toInt x
  have hhi : x.toInt < 2 ^ 63 := BitVec.toInt_lt
  have hword : (x.toInt % 2 ^ 256).toNat = (bytes32OfI64 x).toNat := by
    rcases Int.lt_or_le x.toInt 0 with hneg | hpos
    · have hw := toNat_bytes32OfI64_of_neg hneg
      omega
    · have hw := toNat_bytes32OfI64_of_nonneg hpos
      omega
  rw [encodeInt, if_pos ⟨by omega, by omega⟩, hword, wordBytes]

theorem encodeBytes32_of_length {value : Bytes} (h : value.length = 32) : encodeBytes32 value = .ok value := by
  rw [encodeBytes32, revertIf_of_not (not_not.2 h)]
  rfl

theorem encodeBytes32_word (w : Bytes32) : encodeBytes32 (wordBytes w) = .ok (wordBytes w) :=
  encodeBytes32_of_length (length_wordBytes w)

theorem isSpace_of_isHexDigit {c : Char} (h : Hex.isHexDigit c = true) : isSpace c = false := by
  refine Bool.eq_false_iff.2 ?_
  intro hs
  simp only [isSpace, List.mem_cons, List.not_mem_nil, or_false, decide_eq_true_eq] at hs
  rcases hs with rfl | rfl | rfl | rfl | rfl | rfl <;> simp [Hex.isHexDigit] at h

theorem fromhex_bytesToHex (bs : Bytes) : fromhex (Hex.bytesToHex bs) = some bs := by
  induction bs with
  | nil => rfl
  | cons b bs ih =>
    have hb := b.toNat_lt
    have hi := Hex.isHexDigit_digitChar (d := b.toNat / 16) (by omega)
    have lo := Hex.isHexDigit_digitChar (d := b.toNat % 16) (by omega)
    have hbyte : UInt8.ofNat (16 * (b.toNat / 16) + b.toNat % 16) = b := by
      rw [Nat.div_add_mod, UInt8.ofNat_toNat]
    show fromhex ((b.toNat / 16).digitChar :: (b.toNat % 16).digitChar :: Hex.bytesToHex bs) = _
    rw [fromhex, isSpace_of_isHexDigit hi, hi, lo, ih, Hex.hexValue_digitChar (by omega),
      Hex.hexValue_digitChar (by omega), hbyte]
    rfl

/-- `addr` is `a` in hexadecimal digits of either case, with or without `0x`. -/
def Spells (addr : String) (a : Address) : Prop :=
  addr.toList.map Char.toLower = Hex.bytesToHex (toBE 20 a.toNat) ∨
    addr.toList.map Char.toLower = '0' :: 'x' :: Hex.bytesToHex (toBE 20 a.toNat)

theorem wordBytes_addressWord (a : Address) : wordBytes (addressWord a) = List.replicate 12 0 ++ toBE 20 a.toNat := by
  have hlt := a.isLt
  have hdiv : a.toNat / 256 ^ 20 = 0 := by omega
  rw [wordBytes, toNat_addressWord, show 32 = 12 + 20 from rfl, toBE_add, hdiv, toBE_zero]

/-- Twenty bytes in digits do not begin with `0x`. -/
theorem not_isPrefixOf_bytesToHex (bs : Bytes) : ['0', 'x'].isPrefixOf (Hex.bytesToHex bs) = false := by
  have hall := Hex.isHexDigit_bytesToHex bs
  rcases h : Hex.bytesToHex bs with _ | ⟨c, _ | ⟨d, cs⟩⟩
  · rfl
  · simp [List.isPrefixOf]
  · rw [h] at hall
    have hd : d ≠ 'x' := fun hd => by simp [hd, Hex.isHexDigit] at hall
    simp [List.isPrefixOf, hd.symm]

theorem encodeAddress_of_spells {addr : String} {a : Address} (h : Spells addr a) :
    encodeAddress addr = .ok (wordBytes (addressWord a)) := by
  have hlen : ¬ (Hex.bytesToHex (toBE 20 a.toNat)).length ≠ 40 := by simp
  have hdigits : (let s := addr.toList.map Char.toLower
      if ['0', 'x'].isPrefixOf s then s.drop 2 else s) = Hex.bytesToHex (toBE 20 a.toNat) := by
    rcases h with h | h
    · rw [h]
      simp [not_isPrefixOf_bytesToHex]
    · rw [h]
      simp [List.isPrefixOf]
  rw [encodeAddress]
  dsimp only at hdigits ⊢
  rw [hdigits, revertIf_of_not hlen, ok_bind, fromhex_bytesToHex, wordBytes_addressWord]
  rfl

/-! ### The same byte strings -/

namespace PublicInputs

structure InRange (q : PublicInputs) : Prop where
  deviceId : IsU64 q.deviceId
  sessionId : IsU64 q.sessionId
  epochStartTs : IsU64 q.epochStartTs
  lat_e7 : IsI64 q.lat_e7
  lon_e7 : IsI64 q.lon_e7
  lightLevel : IsU64 q.lightLevel
  tamperFlag : IsU64 q.tamperFlag
  payloadHash : q.payloadHash.length = 32
  totalEnergyMWh : IsU64 q.totalEnergyMWh

def toSolidity (q : PublicInputs) : InfraVeritas.PublicInputs where
  deviceId := BitVec.ofInt 64 q.deviceId
  sessionId := BitVec.ofInt 64 q.sessionId
  epochStartTs := BitVec.ofInt 64 q.epochStartTs
  lat_e7 := BitVec.ofInt 64 q.lat_e7
  lon_e7 := BitVec.ofInt 64 q.lon_e7
  lightLevel := BitVec.ofInt 64 q.lightLevel
  tamperFlag := BitVec.ofInt 64 q.tamperFlag
  payloadHash := BitVec.ofNat 256 (ofBE q.payloadHash)
  totalEnergyMWh := BitVec.ofInt 64 q.totalEnergyMWh

end PublicInputs

theorem toNat_ofInt {v : Int} (h : IsU64 v) : ((BitVec.ofInt 64 v).toNat : Int) = v := by
  obtain ⟨h0, h1⟩ := h
  rw [BitVec.toNat_ofInt]
  omega

theorem toInt_ofInt {v : Int} (h : IsI64 v) : (BitVec.ofInt 64 v).toInt = v := by
  obtain ⟨h0, h1⟩ := h
  rw [BitVec.toInt_ofInt, Int.bmod_def]
  omega

theorem wordBytes_ofNat {bs : Bytes} (h : bs.length = 32) : wordBytes (BitVec.ofNat 256 (ofBE bs)) = bs := by
  have hlt : ofBE bs < 2 ^ 256 := by
    have := ofBE_lt bs
    rwa [h] at this
  have hround := toBE_ofBE bs
  rw [h] at hround
  rw [wordBytes, BitVec.toNat_ofNat, Nat.mod_eq_of_lt hlt, hround]

theorem encodeUint_ofInt {v : Int} (h : IsU64 v) : encodeUint v = .ok (wordBytes (bytes32OfU64 (BitVec.ofInt 64 v))) := by
  rw [← encodeUint_u64, toNat_ofInt h]

theorem encodeInt_ofInt {v : Int} (h : IsI64 v) : encodeInt v = .ok (wordBytes (bytes32OfI64 (BitVec.ofInt 64 v))) := by
  rw [← encodeInt_i64, toInt_ofInt h]

theorem domainEncoding_eq {env : Env} {addr : String} (h : Spells addr env.self) :
    domainEncoding keccak env.chainid.toNat addr = .ok (V3.domainPreimage keccak env) := by
  have hpreimage : wordBytes (V3.EIP712_DOMAIN_TYPEHASH keccak) ++ wordBytes (V3.DOMAIN_NAME_HASH keccak) ++
      wordBytes (V3.DOMAIN_VERSION_HASH keccak) ++ wordBytes env.chainid ++ wordBytes (addressWord env.self) =
      V3.domainPreimage keccak env := by
    simp [V3.domainPreimage, abiEncode]
  have htype : EIP712_DOMAIN_TYPEHASH keccak = wordBytes (V3.EIP712_DOMAIN_TYPEHASH keccak) := rfl
  have hname : DOMAIN_NAME_HASH keccak = wordBytes (V3.DOMAIN_NAME_HASH keccak) := rfl
  have hversion : DOMAIN_VERSION_HASH keccak = wordBytes (V3.DOMAIN_VERSION_HASH keccak) := rfl
  unfold domainEncoding
  simp only [htype, hname, hversion, encodeBytes32_word, encodeUint_word, encodeAddress_of_spells h, ok_bind, hpreimage]
  rfl

theorem structEncoding_eq {q : PublicInputs} (h : q.InRange) :
    structEncoding keccak q = .ok (V3.structPreimage keccak q.toSolidity) := by
  have hhash : encodeBytes32 q.payloadHash = .ok (wordBytes (BitVec.ofNat 256 (ofBE q.payloadHash))) := by
    rw [encodeBytes32_of_length h.payloadHash, wordBytes_ofNat h.payloadHash]
  have htype : encodeBytes32 (ENERGY_PROOF_TYPEHASH keccak) = .ok (wordBytes (V3.ENERGY_PROOF_TYPEHASH keccak)) := by
    have heq : ENERGY_PROOF_TYPEHASH keccak = wordBytes (V3.ENERGY_PROOF_TYPEHASH keccak) := rfl
    rw [heq, encodeBytes32_word]
  unfold structEncoding
  simp only [htype, encodeUint_ofInt h.deviceId, encodeUint_ofInt h.sessionId, encodeUint_ofInt h.epochStartTs,
    encodeInt_ofInt h.lat_e7, encodeInt_ofInt h.lon_e7, encodeUint_ofInt h.lightLevel, encodeUint_ofInt h.tamperFlag,
    hhash, encodeUint_ofInt h.totalEnergyMWh, ok_bind]
  simp [V3.structPreimage, V3.encodePublicInputs, PublicInputs.toSolidity, abiEncode, pure, Except.pure]

theorem computeDomainSeparator_eq {env : Env} {addr : String} (h : Spells addr env.self) :
    computeDomainSeparator keccak env.chainid.toNat addr = .ok (wordBytes (V3.buildDomainSeparator keccak env)) := by
  rw [computeDomainSeparator, domainEncoding_eq h]
  rfl

theorem computeStructHash_eq {q : PublicInputs} (h : q.InRange) :
    computeStructHash keccak q = .ok (wordBytes (V3.structHash keccak q.toSolidity)) := by
  rw [computeStructHash, structEncoding_eq h]
  rfl

end Edge

/-! ### Binding -/

namespace V3
variable {keccak : Bytes → Bytes32} {env env' : Env} {pi pi' : PublicInputs}

theorem domainPreimage_inj : domainPreimage keccak env = domainPreimage keccak env' ↔
    env.chainid = env'.chainid ∧ env.self = env'.self := by
  unfold domainPreimage
  rw [abiEncode_inj (by rfl)]
  simp [addressWord_inj]

theorem structPreimage_inj : structPreimage keccak pi = structPreimage keccak pi' ↔ pi = pi' := by
  unfold structPreimage
  rw [abiEncode_inj (by rfl)]
  cases pi
  cases pi'
  simp [encodePublicInputs, bytes32OfU64_inj, bytes32OfI64_inj]

/-- The digest under the separator of the chain `env` is on. -/
def freshPreimage (keccak : Bytes → Bytes32) (env : Env) (pi : PublicInputs) : Bytes :=
  [0x19, 0x01] ++ wordBytes (buildDomainSeparator keccak env) ++ wordBytes (structHash keccak pi)

theorem freshPreimage_inj : freshPreimage keccak env pi = freshPreimage keccak env' pi' ↔
    buildDomainSeparator keccak env = buildDomainSeparator keccak env' ∧ structHash keccak pi = structHash keccak pi' := by
  unfold freshPreimage
  refine ⟨fun h => ?_, fun ⟨hd, hs⟩ => by rw [hd, hs]⟩
  obtain ⟨hd, hs⟩ := List.append_inj h (by simp)
  exact ⟨wordBytes_inj.1 (List.append_cancel_left hd), wordBytes_inj.1 hs⟩

/-- The three byte strings hashed for a digest. -/
def hashed (keccak : Bytes → Bytes32) (env : Env) (pi : PublicInputs) : List Bytes :=
  [domainPreimage keccak env, structPreimage keccak pi, freshPreimage keccak env pi]

/-- The layers of hashing are undone from the outside in. -/
theorem digest_binding (hk : Set.InjOn keccak {bs | bs ∈ hashed keccak env pi ++ hashed keccak env' pi'})
    (h : keccak (freshPreimage keccak env pi) = keccak (freshPreimage keccak env' pi')) :
    pi = pi' ∧ env.chainid = env'.chainid ∧ env.self = env'.self := by
  have hfresh := hk (by simp [hashed]) (by simp [hashed]) h
  obtain ⟨hd, hs⟩ := freshPreimage_inj.1 hfresh
  rw [buildDomainSeparator_eq, buildDomainSeparator_eq] at hd
  rw [structHash_eq, structHash_eq] at hs
  have hdomain := hk (by simp [hashed]) (by simp [hashed]) hd
  have hstruct := hk (by simp [hashed]) (by simp [hashed]) hs
  exact ⟨structPreimage_inj.1 hstruct, domainPreimage_inj.1 hdomain⟩

end V3

namespace Edge
variable {keccak : Bytes → Bytes32} {env env' : Env} {s : V3State} {q q' : PublicInputs} {addr addr' : String}

theorem PublicInputs.InRange.toSolidity_inj (h : q.InRange) (h' : q'.InRange) (heq : q.toSolidity = q'.toSolidity) :
    q = q' := by
  have u64 {v w : Int} (hv : IsU64 v) (hw : IsU64 w) (e : BitVec.ofInt 64 v = BitVec.ofInt 64 w) : v = w := by
    rw [← toNat_ofInt hv, ← toNat_ofInt hw, e]
  have i64 {v w : Int} (hv : IsI64 v) (hw : IsI64 w) (e : BitVec.ofInt 64 v = BitVec.ofInt 64 w) : v = w := by
    rw [← toInt_ofInt hv, ← toInt_ofInt hw, e]
  have hash (e : BitVec.ofNat 256 (ofBE q.payloadHash) = BitVec.ofNat 256 (ofBE q'.payloadHash)) :
      q.payloadHash = q'.payloadHash :=
    (wordBytes_ofNat h.payloadHash).symm.trans ((congrArg wordBytes e).trans (wordBytes_ofNat h'.payloadHash))
  simp only [toSolidity, InfraVeritas.PublicInputs.mk.injEq] at heq
  obtain ⟨h₁, h₂, h₃, h₄, h₅, h₆, h₇, h₈, h₉⟩ := heq
  cases q
  cases q'
  simp only [PublicInputs.mk.injEq]
  exact ⟨u64 h.deviceId h'.deviceId h₁, u64 h.sessionId h'.sessionId h₂, u64 h.epochStartTs h'.epochStartTs h₃,
    i64 h.lat_e7 h'.lat_e7 h₄, i64 h.lon_e7 h'.lon_e7 h₅, u64 h.lightLevel h'.lightLevel h₆,
    u64 h.tamperFlag h'.tamperFlag h₇, hash h₈, u64 h.totalEnergyMWh h'.totalEnergyMWh h₉⟩

theorem digestEncoding_eq (hq : q.InRange) (haddr : Spells addr env.self) :
    digestEncoding keccak q env.chainid.toNat addr = .ok (V3.freshPreimage keccak env q.toSolidity) := by
  rw [digestEncoding, computeDomainSeparator_eq haddr, computeStructHash_eq hq]
  rfl

theorem computeEip712Digest_eq (hq : q.InRange) (haddr : Spells addr env.self) :
    computeEip712Digest keccak q env.chainid.toNat addr =
      .ok (wordBytes (keccak (V3.freshPreimage keccak env q.toSolidity))) := by
  rw [computeEip712Digest, digestEncoding_eq hq haddr]
  rfl

/-- The edge hashes at a chain and an address what V3 hashes there. -/
structure Agrees (keccak : Bytes → Bytes32) (env : Env) (s : V3State) (q : PublicInputs) (addr : String) : Prop where
  domain : domainEncoding keccak env.chainid.toNat addr = .ok (V3.domainPreimage keccak env)
  struct : structEncoding keccak q = .ok (V3.structPreimage keccak q.toSolidity)
  encoding : digestEncoding keccak q env.chainid.toNat addr = .ok (V3.digestPreimage keccak env s q.toSolidity)
  digest : computeEip712Digest keccak q env.chainid.toNat addr = .ok (wordBytes (V3.eip712Digest keccak env s q.toSolidity))

theorem agrees (hs : V3.domainSeparator keccak env s = V3.buildDomainSeparator keccak env) (hq : q.InRange)
    (haddr : Spells addr env.self) : Agrees keccak env s q addr := by
  have hpreimage : V3.digestPreimage keccak env s q.toSolidity = V3.freshPreimage keccak env q.toSolidity := by
    rw [V3.digestPreimage, V3.freshPreimage, hs]
  refine ⟨domainEncoding_eq haddr, structEncoding_eq hq, ?_, ?_⟩
  · rw [hpreimage, digestEncoding_eq hq haddr]
  · rw [V3.eip712Digest_eq, hpreimage, computeEip712Digest_eq hq haddr]

theorem binds (hq : q.InRange) (hq' : q'.InRange) (haddr : Spells addr env.self) (haddr' : Spells addr' env'.self)
    (hk : Set.InjOn keccak {bs | bs ∈ V3.hashed keccak env q.toSolidity ++ V3.hashed keccak env' q'.toSolidity})
    (h : computeEip712Digest keccak q env.chainid.toNat addr = computeEip712Digest keccak q' env'.chainid.toNat addr') :
    q = q' ∧ env.chainid = env'.chainid ∧ env.self = env'.self := by
  rw [computeEip712Digest_eq hq haddr, computeEip712Digest_eq hq' haddr', Except.ok.injEq, wordBytes_inj] at h
  obtain ⟨hpi, hchain, hself⟩ := V3.digest_binding hk h
  exact ⟨hq.toSolidity_inj hq' hpi, hchain, hself⟩

end Edge

/-- A proxy that `initialize` set up agrees on every chain. An empty cache, left by a version without one, would
answer for the chain id 0. -/
theorem eip712_agreement {keccak : Bytes → Bytes32} {env : Env} {p : V3.ProxyState} {msgs : List V3.Message}
    (hself : ∀ m ∈ msgs, m.env.self = env.self) {q : Edge.PublicInputs} (hq : q.InRange) {addr : String}
    (haddr : Edge.Spells addr env.self) :
    (∀ init admin registry p256 honk, init.self = env.self →
      V3.initializeProxy keccak init V3.fresh admin registry p256 honk = .ok p.storage →
      Edge.Agrees keccak env (Runs.run (V3.deliver keccak) p msgs).storage q addr) ∧
    (p.storage.cachedChainId = 0 → p.storage.cachedDomainSeparator = 0 → env.chainid ≠ 0 →
      Edge.Agrees keccak env (Runs.run (V3.deliver keccak) p msgs).storage q addr) ∧
    ∀ (env' : Env) (q' : Edge.PublicInputs) (addr' : String), q'.InRange → Edge.Spells addr' env'.self →
      Set.InjOn keccak {bs | bs ∈ V3.hashed keccak env q.toSolidity ++ V3.hashed keccak env' q'.toSolidity} →
      Edge.computeEip712Digest keccak q env.chainid.toNat addr =
        Edge.computeEip712Digest keccak q' env'.chainid.toNat addr' →
      q = q' ∧ env.chainid = env'.chainid ∧ env.self = env'.self := by
  refine ⟨fun init admin registry p256 honk hinit h0 => ?_, ?_, ?_⟩
  · have hcached := V3.Cached.of_initializeProxy hinit h0
    exact Edge.agrees ((hcached.run hself).domainSeparator_eq rfl) hq haddr
  · intro hid hsep hne
    have h0 : V3.Origin keccak env.self p.storage := .upgraded hid hsep
    exact Edge.agrees ((h0.cacheInv.run hself).domainSeparator_eq rfl hne) hq haddr
  · intro env' q' addr' hq' haddr' hk h
    exact Edge.binds hq hq' haddr haddr' hk h

namespace Edge.SampleDomain
open V3.TestChain

/-- The last word under the length. -/
def tailKeccak (bs : Bytes) : Bytes32 :=
  BitVec.ofNat 256 (2 ^ 240 * bs.length + ofBE (bs.drop (bs.length - 32)) % 2 ^ 240)

/-- A device in the southern hemisphere. -/
def southern : PublicInputs := ⟨7, 1, 1700000000, -337000000, 1512000000, 300, 0, List.replicate 32 1, 25⟩

def inflated : PublicInputs := { southern with totalEnergyMWh := 26 }

def proxyAddress : String := "0x00000000000000000000000000000000000000A9"
def otherAddress : String := "00000000000000000000000000000000000000aa"

def proxyEnv : Env := envAt openOracles 0xa9 1
def otherEnv : Env := envAt openOracles 0xaa 5

/-- Account 1 deployed it on chain 1. -/
def proxy : V3.ProxyState :=
  ⟨((V3.initializeProxy tailKeccak proxyEnv V3.fresh 1 2 3 4).toOption).getD V3.fresh, 6, [6]⟩

theorem southern_inRange : southern.InRange := by
  constructor <;> decide

theorem inflated_inRange : inflated.InRange := by
  constructor <;> decide

theorem proxyAddress_spells : Spells proxyAddress 0xa9 := .inr (by decide +kernel)

theorem otherAddress_spells : Spells otherAddress 0xaa := .inl (by decide +kernel)

/-- No two of the six byte strings collide. -/
theorem hashed_injOn : Set.InjOn tailKeccak {bs | bs ∈ V3.hashed tailKeccak proxyEnv southern.toSolidity ++
    V3.hashed tailKeccak otherEnv inflated.toSolidity} := by
  intro as ha bs hb h
  have hnodup : ((V3.hashed tailKeccak proxyEnv southern.toSolidity ++
      V3.hashed tailKeccak otherEnv inflated.toSolidity).map tailKeccak).Nodup := by decide +kernel
  exact List.inj_on_of_nodup_map hnodup ha hb h

end Edge.SampleDomain

open Edge Edge.SampleDomain in
theorem eip712_agreement_sample :
    Agrees tailKeccak proxyEnv proxy.storage southern proxyAddress ∧
    computeEip712Digest tailKeccak southern 1 proxyAddress ≠ computeEip712Digest tailKeccak inflated 5 otherAddress := by
  have hinit : V3.initializeProxy tailKeccak proxyEnv V3.fresh 1 2 3 4 = .ok proxy.storage := rfl
  have hself : ∀ m ∈ ([] : List V3.Message), m.env.self = proxyEnv.self := nofun
  obtain ⟨hagrees, -, hbinds⟩ := eip712_agreement hself southern_inRange proxyAddress_spells
  refine ⟨hagrees proxyEnv 1 2 3 4 rfl hinit, ?_⟩
  intro h
  obtain ⟨heq, -⟩ := hbinds otherEnv inflated otherAddress inflated_inRange otherAddress_spells hashed_injOn h
  exact absurd heq (by decide)

end InfraVeritas
