import AccountTx.Command.Run
import AccountTx.Proofs.Assembly.RoundTrip
import AccountTx.Proofs.Form.Order
import AccountTx.Proofs.Form.Payload
import AccountTx.Proofs.Json.Layout
import AccountTx.Proofs.Text.Blank
import AccountTx.Proofs.Wallet.Import

/-!
The commands agree about a transaction. What is told when it is signed is what is told when its
block item is inspected, the rest of the report is what was asked for, and the energy is what the
command for energy computes from the number of keys, the size and the base cost.
-/

namespace AccountTx

/-- The value that a document has under a name. -/
def Json.under : Json → String → Option Json
  | .object members, name => member? name members
  | _, _ => none

/-- Under a name the document has the form of a value, which is read back from it. -/
structure Shows {α : Type} [JsonForm α] (document : Json) (name : String) (a : α) : Prop where
  under_eq : document.under name = some (Json.sorted (toJson a))
  ofJson_eq : ofJson (Json.sorted (toJson a)) = .ok a

theorem shows_sorted {α : Type} [JsonForm α] [LawfulForm α] [OrderFree α]
    {members : List (String × Json)} {name : String} {a : α}
    (h : Json.member? name members = some (toJson a)) :
    Shows (Json.sorted (.object members)) name a where
  under_eq := by rw [Json.sorted, Json.under, Json.member?_sorted, h, Option.map_some]
  ofJson_eq := by rw [ofJson_sorted, ofJson_toJson]

namespace Command

/-- The document that a request prints. -/
def Prints (s : Surroundings) (q : Request) (document : Json) : Prop :=
  ∃ a, run s q = .ok a ∧ Json.parse a.text = some document

/-- A request that signs, with the payload that it makes and how that is signed. -/
inductive Signs (s : Surroundings) : Request → Payload → SigningOptions → Prop where
  | transfer {receiver : String} {amount : UInt64} {memo : Option String} {payload : Payload}
      {options : SigningOptions} : transferPayload receiver amount memo = .ok payload →
      Signs s (.transfer receiver amount memo options) payload options
  | registerData {text : String} {data : ChainData} {options : SigningOptions} :
      ChainData.ofHex text = .ok data →
      Signs s (.registerData text options) (.registerData data) options
  | deployModule {path : String} {module : Bytes} {options : SigningOptions} :
      s.file path = .ok module → Signs s (.deployModule path options) (.deployModule module) options

/-- What is reported of a block item is what the receipt says, and what was asked for. -/
structure Agrees (report : Json) (o : Receipt) (t : PreparedTransaction) (r : Registry) :
    Prop where
  hash : Shows report "transaction_hash" o.hash
  type : Shows report "transaction_type" t.payload.type
  payload : Shows report "payload" t.payload
  header : ∃ h : Header, Shows report "header" h ∧ h.energy = o.energy ∧
    h.payloadSize = o.payloadSize ∧ h.sender = t.sender ∧ h.nonce = t.nonce ∧ h.expiry = t.expiry
  signatures : ∃ m : SignatureMap, Shows report "signatures" m ∧ SlotMap.slots m.slots = r.slots

section Signing

variable {s : Surroundings} {q : Request} {payload : Payload} {options : SigningOptions}

theorem signPayload_eq_ok_iff {tx : SignedTransaction} :
    signPayload s options payload = .ok tx ↔
      ∃ account, loadAccount s options.keys options.sender = .ok account ∧
        ∃ nonce, Nonce.ofNumber options.nonce = .ok nonce ∧
          ∃ expiry, Expiry.minutesFrom s.now options.expiryMinutes = .ok expiry ∧
            (PreparedTransaction.mk account.address nonce expiry payload).sign account.signers
              = .ok tx := by
  simp only [signPayload, except_bind_eq_ok_iff, mapError_eq_ok_iff]

theorem run_eq_signed_iff {o : Receipt} :
    run s q = .ok (.signed o) ↔ ∃ payload options tx, Signs s q payload options ∧
      signPayload s options payload = .ok tx ∧ .of tx = o := by
  constructor
  · intro h
    cases q with
    | transfer receiver amount memo options =>
        obtain ⟨payload, hpayload, tx, hsign, ho⟩ := by
          simpa only [run, except_bind_eq_ok_iff] using h
        cases ho
        exact ⟨payload, options, tx, .transfer hpayload, hsign, rfl⟩
    | registerData text options =>
        obtain ⟨data, hdata, tx, hsign, ho⟩ := by
          simpa only [run, except_bind_eq_ok_iff, mapError_eq_ok_iff] using h
        cases ho
        exact ⟨_, options, tx, .registerData hdata, hsign, rfl⟩
    | deployModule path options =>
        obtain ⟨module, hmodule, tx, hsign, ho⟩ := by
          simpa only [run, except_bind_eq_ok_iff, mapError_eq_ok_iff] using h
        cases ho
        exact ⟨_, options, tx, .deployModule hmodule, hsign, rfl⟩
    | energy signatures payloadSize baseCost =>
        obtain ⟨e, -, he⟩ := by simpa only [run, except_bind_eq_ok_iff] using h
        cases he
    | inspect blockItem =>
        obtain ⟨t, -, ht⟩ := by simpa only [run, except_bind_eq_ok_iff] using h
        cases ht
    | version => cases h
  · rintro ⟨payload, options, tx, hsigns, hsign, rfl⟩
    cases hsigns with
    | transfer hpayload =>
        simp only [run, except_bind_eq_ok_iff]
        exact ⟨payload, hpayload, tx, hsign, rfl⟩
    | registerData hdata =>
        simp only [run, except_bind_eq_ok_iff, mapError_eq_ok_iff]
        exact ⟨_, hdata, tx, hsign, rfl⟩
    | deployModule hmodule =>
        simp only [run, except_bind_eq_ok_iff, mapError_eq_ok_iff]
        exact ⟨_, hmodule, tx, hsign, rfl⟩

end Signing

section Transaction

variable {t : PreparedTransaction} {r : Registry} {tx : SignedTransaction}

theorem isExact_inspection (tx : SignedTransaction) : Json.IsExact (Answer.inspection tx) :=
  ⟨isExact_toJson tx.hash, isExact_toJson tx.payload.type, isExact_toJson tx.header,
    isExact_toJson tx.payload, isExact_toJson tx.signatures, trivial⟩

/-- The text of a block item, with white space around it, is inspected as the transaction. -/
theorem run_inspect (hof : tx.IsOf t r) {before after : String}
    (hbefore : ∀ c ∈ before.toList, Text.isBlank c = true)
    (hafter : ∀ c ∈ after.toList, Text.isBlank c = true) (s : Surroundings) :
    run s (.inspect (before ++ (Receipt.of tx).blockItem ++ after)) = .ok (.inspected tx) := by
  simp only [run, inspectText, except_bind_eq_ok_iff, mapError_eq_ok_iff]
  refine ⟨tx, ⟨tx.toBlockItem.bytes, ?_, hof.decode_toBlockItem⟩, rfl⟩
  rw [Receipt.of, Text.trim_encode hbefore hafter, Hex.decode_encode]

theorem prints_signed {s : Surroundings} {q : Request} {o : Receipt}
    (hrun : run s q = .ok (.signed o)) : Prints s q o.document :=
  ⟨_, hrun, Json.parse_pretty ⟨isExact_toJson o.hash, isExact_toJson o.blockItem,
    isExact_toJson o.energy, isExact_toJson o.payloadSize, trivial⟩⟩

theorem prints_inspected {s : Surroundings} {q : Request} (hrun : run s q = .ok (.inspected tx)) :
    Prints s q (Json.sorted (Answer.inspection tx)) :=
  ⟨_, hrun, Json.parse_pretty (Json.isExact_sorted _ (isExact_inspection tx))⟩

theorem agrees_inspection (hof : tx.IsOf t r) :
    Agrees (Json.sorted (Answer.inspection tx)) (.of tx) t r where
  hash := shows_sorted rfl
  type := hof.payload_eq ▸ shows_sorted rfl
  payload := hof.payload_eq ▸ shows_sorted rfl
  header := ⟨tx.header, shows_sorted rfl, rfl, rfl, hof.header_isOf.sender_eq,
    hof.header_isOf.nonce_eq, hof.header_isOf.expiry_eq⟩
  signatures := by
    refine ⟨tx.signatures, shows_sorted rfl, ?_⟩
    rw [hof.slots_eq, SlotMap.slots_mapValues, Registry.slots]

/-- What the header of a transaction allows is what its charges add up to. -/
theorem run_energy (hof : tx.IsOf t r) (s : Surroundings) :
    run s (.energy (UInt32.ofNat r.count) tx.header.payloadSize.value t.payload.baseCost.value)
      = .ok (.energy tx.header.energy) := by
  have hlength : t.payload.encode.length < UInt32.size := by
    rw [← hof.header_isOf.size_eq]
    exact tx.header.payloadSize.value.toNat_lt
  have hsize : tx.header.payloadSize.value = UInt32.ofNat t.payload.encode.length := by
    rw [← hof.header_isOf.size_eq, UInt32.ofNat_toNat]
  have hcharge : t.charge (UInt32.ofNat r.count).toNat = tx.header.energy.value.toNat := by
    rw [r.toNat_ofNat_count]
    exact hof.header_isOf.energy_eq.symm
  simp only [run, except_bind_eq_ok_iff, mapError_eq_ok_iff]
  refine ⟨tx.header.energy, ?_, rfl⟩
  rw [hsize]
  exact (t.cost_eq_ok_iff hlength).mpr hcharge

theorem prints_energy {s : Surroundings} {q : Request} {e : Energy}
    (hrun : run s q = .ok (.energy e)) : ∃ report, Prints s q report ∧ Shows report "energy" e := by
  refine ⟨.object [("energy", toJson e)], ⟨_, hrun, ?_⟩, ?_⟩
  · exact Json.parse_pretty ⟨isExact_toJson e, trivial⟩
  · exact ⟨rfl, ofJson_toJson e⟩

end Transaction

/-- Whatever is signed, inspecting the block item that was told, with any white space around it,
reports the hash, the energy and the size that were told with it, the sender, the sequence number
and the payload that were asked for, and signatures at exactly the slots of the account; and the
command for energy prints the same energy for the number of its keys. -/
theorem commands_agree {s : Surroundings} {q : Request} {o : Receipt}
    (hrun : run s q = .ok (.signed o)) :
    ∃ payload options account nonce expiry, Signs s q payload options ∧
      loadAccount s options.keys options.sender = .ok account ∧ nonce.value = options.nonce ∧
      Expiry.minutesFrom s.now options.expiryMinutes = .ok expiry ∧ Prints s q o.document ∧
      (∀ (s' : Surroundings) before after, (∀ c ∈ before.toList, Text.isBlank c = true) →
        (∀ c ∈ after.toList, Text.isBlank c = true) →
        ∃ report, Prints s' (.inspect (before ++ o.blockItem ++ after)) report ∧
          Agrees report o ⟨account.address, nonce, expiry, payload⟩ account.signers) ∧
      (UInt32.ofNat account.signers.count).toNat = account.signers.count ∧
      ∀ s' : Surroundings, ∃ report, Prints s' (.energy (UInt32.ofNat account.signers.count)
        o.payloadSize.value payload.baseCost.value) report ∧ Shows report "energy" o.energy := by
  obtain ⟨payload, options, tx, hsigns, hsign, rfl⟩ := run_eq_signed_iff.mp hrun
  obtain ⟨account, haccount, nonce, hnonce, expiry, hexpiry, hsign⟩ :=
    signPayload_eq_ok_iff.mp hsign
  have hof := PreparedTransaction.sign_eq_ok_iff.mp hsign
  refine ⟨payload, options, account, nonce, expiry, hsigns, haccount,
    Nonce.ofNumber_eq_ok_iff.mp hnonce, hexpiry, prints_signed hrun,
    fun s' before after hbefore hafter => ?_, account.signers.toNat_ofNat_count,
    fun s' => prints_energy (run_energy hof s')⟩
  exact ⟨_, prints_inspected (run_inspect hof hbefore hafter s'), agrees_inspection hof⟩

/-- The wallet of one key is in every file. -/
def oneKeySurroundings : Surroundings where
  now := 1699999000
  file _ := .ok (Utf8.encode (Wallet.oneKeyText ['0'] ['n']))

/-- A transfer of one CCD to the sender itself. -/
def oneKeyTransfer : Request :=
  .transfer (Hex.encode Wallet.oneSender.bytes.toList) 1000000 none
    ⟨"keys.json", some Wallet.oneSender, 7, 10⟩

def zeroKey : SecretKey := ⟨⟨List.replicate 32 0, rfl⟩⟩

theorem load_oneKey :
    ∃ r, loadAccount oneKeySurroundings "keys.json" (some Wallet.oneSender)
        = .ok ⟨Wallet.oneSender, r, .genesis⟩ ∧
      r.signers = IndexMap.empty.insert 0 (IndexMap.empty.insert 3 zeroKey.sign) := by
  have htext : Utf8.decode? (Utf8.encode (Wallet.oneKeyText ['0'] ['n'])) =
      some (Wallet.oneKeyText ['0'] ['n']) :=
    Utf8.decode?_encode (Hex.forall_mem_of_all (by decide +kernel))
  have hraw : Json.parseDocument (Wallet.oneKeyText ['0'] ['n']) =
      some (Wallet.oneKeyDocument ['0'] ['n']) := by
    rw [Json.parseDocument, Wallet.oneKeyText, String.toList_ofList]
    rfl
  have himport : ∃ r, Wallet.importAccount (Wallet.oneKeyText ['0'] ['n']) (some Wallet.oneSender)
      = .ok ⟨Wallet.oneSender, r, .genesis⟩ ∧
        r.signers = IndexMap.empty.insert 0 (IndexMap.empty.insert 3 zeroKey.sign) := by
    rw [Wallet.importAccount, hraw]
    exact ⟨_, rfl, rfl⟩
  obtain ⟨r, himport, hsigners⟩ := himport
  refine ⟨r, ?_, hsigners⟩
  simp only [loadAccount, oneKeySurroundings, except_bind_eq_ok_iff, mapError_eq_ok_iff]
  refine ⟨_, rfl, ?_⟩
  rw [htext]
  exact mapError_eq_ok_iff.mpr himport

theorem run_oneKeyTransfer :
    ∃ o, run oneKeySurroundings oneKeyTransfer = .ok (.signed o) ∧ o.energy = ⟨501⟩ := by
  obtain ⟨r, haccount, hsigners⟩ := load_oneKey
  let t : PreparedTransaction :=
    ⟨Wallet.oneSender, ⟨7, by decide⟩, ⟨1699999600, by decide⟩,
      .transfer ⟨1000000⟩ Wallet.oneSender⟩
  let header : Header := ⟨t.sender, t.nonce, ⟨501⟩, ⟨41⟩, t.expiry⟩
  let digest := signingDigest header t.payload.encode
  let tx : SignedTransaction :=
    { header := header
      payload := t.payload
      payloadBytes := t.payload.encode
      signatures :=
        { slots := ⟨[(0, ⟨[(3, zeroKey.sign digest.toList)], by simp⟩)], by simp⟩
          fits := by
            simp [SignatureMap.Fits, SignatureMap.KeysFit, IndexMap.size, Limits.maxSigners,
              SecretKey.length_sign, Limits.signatureLength, Limits.maxSignatureLength] } }
  have hcount : r.count = 1 := by rw [Registry.count, hsigners]; rfl
  have hslots : SlotMap.mapValues (fun signer => signer tx.digest.toList) r.signers =
      tx.signatures.slots := by
    rw [hsigners]
    rfl
  have hof : tx.IsOf t r :=
    { header_isOf := ⟨rfl, rfl, rfl, rfl, by rw [hcount]; rfl⟩
      payload_eq := rfl
      payloadBytes_eq := rfl
      slots_eq := hslots.symm }
  have hsign := PreparedTransaction.sign_eq_ok_iff.mpr hof
  refine ⟨.of tx, run_eq_signed_iff.mpr ⟨_, _, tx, .transfer rfl, ?_, rfl⟩, rfl⟩
  exact signPayload_eq_ok_iff.mpr ⟨_, haccount, _, rfl, _, rfl, hsign⟩

theorem agree_oneKeyTransfer :
    ∃ o, run oneKeySurroundings oneKeyTransfer = .ok (.signed o) ∧ o.energy = ⟨501⟩ ∧
      ∃ report, Prints oneKeySurroundings (.inspect (" " ++ o.blockItem ++ "\n")) report ∧
        Shows report "transaction_hash" o.hash ∧
        Shows report "payload" (Payload.transfer ⟨1000000⟩ Wallet.oneSender) := by
  obtain ⟨o, hrun, henergy⟩ := run_oneKeyTransfer
  refine ⟨o, hrun, henergy, ?_⟩
  obtain ⟨payload, options, account, nonce, expiry, hsigns, -, -, -, -, hreport, -, -⟩ :=
    commands_agree hrun
  cases hsigns with
  | transfer hpayload =>
      cases hpayload
      obtain ⟨report, hprints, hagrees⟩ :=
        hreport oneKeySurroundings " " "\n" (by simp [Text.isBlank]) (by simp [Text.isBlank])
      exact ⟨report, hprints, hagrees.hash, hagrees.payload⟩

end Command

end AccountTx
