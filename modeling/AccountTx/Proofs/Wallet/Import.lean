import AccountTx.Proofs.Json.RoundTrip
import AccountTx.Proofs.Wallet.Account

/-!
Which documents are imported, and as what. A document is imported in the first format in which an
account can be made of it: one that has the records of the first format, but no account, may still
be imported in the second. The indices of an export have to be spelled without escapes.
-/

namespace AccountTx.Wallet

open Json

/-- The document is an export in a format. -/
inductive WritesAs (rules : Export.Rules) : Format → Document → Export → Prop where
  | genesis {d : Document} {e : Export} : Export.Writes rules d e → WritesAs rules .genesis d e
  | browser {d v : Document} {e : Export} : rules.record d → v ∈ named "value" d →
      Export.Writes rules v e → WritesAs rules .browser d e

/-- No record of an export in either format is written as an array. -/
def recordsAsObjects (d : Document) : Bool :=
  Export.asObjects d && (named "value" d).all Export.asObjects

/-- An account can be made of the document as an export in a format. -/
def Imports (rules : Export.Rules) (format : Format) (d : Document) (sender : Option Address) :
    Prop :=
  ∃ e, WritesAs rules format d e ∧ e.IsImportable sender

section

variable {d : Document} (hdistinct : isDistinct d = true) (hobjects : recordsAsObjects d = true)

include hdistinct hobjects

theorem ofDocument?_eq_some_iff {format : Format} {e : Export} :
    Export.ofDocument? format d = some e ↔ WritesAs .strict format d e := by
  rw [recordsAsObjects, Bool.and_eq_true, List.all_eq_true] at hobjects
  obtain ⟨hgenesis, hvalue⟩ := hobjects
  cases format with
  | genesis =>
      rw [Export.ofDocument?, Export.genesis?_eq_some_iff hdistinct hgenesis]
      constructor
      · exact .genesis
      · rintro ⟨hwrites⟩
        exact hwrites
  | browser =>
      have hobject : isNoArray d = true := by
        rw [Export.asObjects, Bool.and_eq_true] at hgenesis
        exact hgenesis.1
      simp only [Export.ofDocument?, Export.browser?, Option.bind_eq_some_iff,
        Export.part?_eq_some_iff hobject hdistinct]
      constructor
      · rintro ⟨v, ⟨htexts, hv⟩, hread⟩
        have hv' := isDistinct_of_mem_named hdistinct hv
        exact .browser htexts hv ((Export.genesis?_eq_some_iff hv' (hvalue v hv)).mp hread)
      · intro h
        cases h with
        | browser htexts hv hwrites =>
            have hv' := isDistinct_of_mem_named hdistinct hv
            refine ⟨_, ⟨htexts, hv⟩, ?_⟩
            exact (Export.genesis?_eq_some_iff hv' (hvalue _ hv)).mpr hwrites

variable {format : Format} {sender : Option Address} {account : Account}

theorem importAs_eq_ok_iff :
    importAs format d sender = .ok account ↔ ∃ e, WritesAs .strict format d e ∧
      e.IsImportable sender ∧ account.IsOf e sender format := by
  simp only [← ofDocument?_eq_some_iff hdistinct hobjects, ← account_eq_ok_iff, importAs]
  cases Export.ofDocument? format d <;> simp

theorem exists_importAs_iff :
    (∃ account, importAs format d sender = .ok account) ↔
      Imports .strict format d sender := by
  simp only [importAs_eq_ok_iff hdistinct hobjects, Imports]
  constructor
  · rintro ⟨account, e, hwrites, himportable, -⟩
    exact ⟨e, hwrites, himportable⟩
  · rintro ⟨e, hwrites, himportable⟩
    obtain ⟨account, haccount⟩ := exists_account_iff.mpr himportable
    exact ⟨account, e, hwrites, account_eq_ok_iff.mp haccount⟩

end

/-- The first attempt that succeeds counts. -/
theorem importDocument_eq_ok_iff {d : Document} {sender : Option Address} {account : Account} :
    importDocument d sender = .ok account ↔
      importAs .genesis d sender = .ok account ∨
      (¬ ∃ account, importAs .genesis d sender = .ok account) ∧
        importAs .browser d sender = .ok account := by
  rw [importDocument]
  cases importAs .genesis d sender with
  | ok account' => simp
  | error e => cases importAs .browser d sender <;> simp

/-- A document without repeated names whose records are objects is imported in the first format as
which it can be, if there is one, and the account is that of the export: its sender never differs
from a given one, and its registry has exactly the slots of the export, each with the signer of the
secret there. -/
theorem import_law {raw : String} {d : Document} (hraw : parseDocument raw = some d)
    (hdistinct : isDistinct d = true) (hobjects : recordsAsObjects d = true)
    (sender : Option Address) :
    (Imports .strict .genesis d sender →
      ∃ account, importAccount raw sender = .ok account ∧ account.format = .genesis) ∧
    (¬ Imports .strict .genesis d sender → Imports .strict .browser d sender →
      ∃ account, importAccount raw sender = .ok account ∧ account.format = .browser) ∧
    (¬ Imports .strict .genesis d sender → ¬ Imports .strict .browser d sender →
      ∃ cause, importAccount raw sender = .error cause) ∧
    ∀ account, importAccount raw sender = .ok account →
      (∀ s, sender = some s → account.address = s) ∧
      ∃ e, WritesAs .strict account.format d e ∧ e.IsImportable sender ∧
        account.IsOf e sender account.format := by
  have hdocument : importAccount raw sender = importDocument d sender := by
    rw [importAccount, hraw]
  simp only [hdocument, ← exists_importAs_iff hdistinct hobjects]
  refine ⟨?_, ?_, ?_, ?_⟩
  · rintro ⟨account, hgenesis⟩
    refine ⟨account, importDocument_eq_ok_iff.mpr (.inl hgenesis), ?_⟩
    obtain ⟨e, -, -, hof⟩ := (importAs_eq_ok_iff hdistinct hobjects).mp hgenesis
    exact hof.format_eq
  · rintro hother ⟨account, hbrowser⟩
    refine ⟨account, importDocument_eq_ok_iff.mpr (.inr ⟨hother, hbrowser⟩), ?_⟩
    obtain ⟨e, -, -, hof⟩ := (importAs_eq_ok_iff hdistinct hobjects).mp hbrowser
    exact hof.format_eq
  · intro hgenesis hbrowser
    cases himport : importDocument d sender with
    | error cause => exact ⟨cause, rfl⟩
    | ok account =>
        rcases importDocument_eq_ok_iff.mp himport with h | ⟨-, h⟩
        · exact absurd ⟨account, h⟩ hgenesis
        · exact absurd ⟨account, h⟩ hbrowser
  · intro account himport
    have hof : ∃ format e, WritesAs .strict format d e ∧ e.IsImportable sender ∧
        account.IsOf e sender format := by
      rcases importDocument_eq_ok_iff.mp himport with h | ⟨-, h⟩
      · exact ⟨_, (importAs_eq_ok_iff hdistinct hobjects).mp h⟩
      · exact ⟨_, (importAs_eq_ok_iff hdistinct hobjects).mp h⟩
    obtain ⟨format, e, hwrites, himportable, hof⟩ := hof
    obtain rfl := hof.format_eq
    refine ⟨?_, e, hwrites, himportable, hof⟩
    rintro s rfl
    exact hof.resolves.sender_eq

/-! ### One key -/

def zeroSecret : String := String.ofList (List.replicate 64 '0')

/-- One key of one credential, under an address that is not hexadecimal. -/
def oneKey : Export := ⟨IndexMap.empty.insert 0 (IndexMap.empty.insert 3 zeroSecret), "4Z"⟩

def oneSender : Address := ⟨⟨List.replicate 32 1, rfl⟩⟩

theorem oneKey_isImportable : oneKey.IsImportable (some oneSender) := by
  have hfind {credential key : UInt8} {text : String}
      (h : SlotMap.find? oneKey.keys credential key = some text) : text = zeroSecret := by
    rw [SlotMap.find?_eq_some_iff] at h
    obtain ⟨keys, hcredential, hkey⟩ := h
    cases List.mem_singleton.mp hcredential
    cases List.mem_singleton.mp hkey
    rfl
  refine ⟨⟨?_, by decide, by decide⟩, ⟨0, 3, zeroSecret, rfl⟩, oneSender, .given ?_⟩
  · intro credential key text h
    rw [hfind h]
    decide
  · intro hspells
    exact absurd hspells (by decide)

def keysName : Spelling := ['k', 'e', 'y', 's']

def signKeyName : Spelling := ['s', 'i', 'g', 'n', 'K', 'e', 'y']

def accountKeysName : Spelling := ['a', 'c', 'c', 'o', 'u', 'n', 't', 'K', 'e', 'y', 's']

def addressName : Spelling := ['a', 'd', 'd', 'r', 'e', 's', 's']

/-- The record of the one credential. -/
def oneCredential : Document :=
  .object [(keysName, .object [(['3'], .object
    [(signKeyName, .string (List.replicate 64 '0'))])])]

/-- The export with a spelling for the index of its credential, and one more name. -/
def oneKeyDocument (index name : Spelling) : Document :=
  .object [(accountKeysName, .object [(keysName, .object [(index, oneCredential)])]),
    (addressName, .string ['4', 'Z']), (name, .null)]

def inQuotes (s : Spelling) : List Char := '"' :: s ++ ['"']

def inBraces (name : Spelling) (value : List Char) : List Char :=
  '\x7b' :: inQuotes name ++ ':' :: value ++ ['\x7d']

def oneKeyText (index name : Spelling) : String :=
  let credential := inBraces keysName (inBraces ['3']
    (inBraces signKeyName (inQuotes (List.replicate 64 '0'))))
  String.ofList (inBraces accountKeysName (inBraces keysName (inBraces index credential)
    ++ ',' :: inQuotes addressName ++ ':' :: inQuotes ['4', 'Z']
    ++ ',' :: inQuotes name ++ [':', 'n', 'u', 'l', 'l']))

theorem writes_oneKeyDocument {rules : Export.Rules} {index name : Spelling}
    (hcredential : rules.index index 0) (hkey : rules.index ['3'] 3)
    (hrecord : ∀ d, hasTexts d = true → rules.record d)
    (hname : rules.record (oneKeyDocument index name)) :
    Export.Writes rules (oneKeyDocument index name) oneKey := by
  have hnamed {text : String} {s : Spelling} {d : Document} {members : List (Spelling × Document)}
      (h : s.text? = some text) : d ∈ named text (.object ((s, d) :: members)) :=
    mem_named_iff.mpr ⟨s, h, List.mem_cons_self⟩
  have hsecret : Export.WritesSecret rules
      (.object [(signKeyName, .string (List.replicate 64 '0'))]) zeroSecret :=
    .intro (hrecord _ rfl) (hnamed rfl) rfl
  have hkeys : Export.WritesKeys rules (Export.WritesSecret rules) oneCredential
      (IndexMap.empty.insert 3 zeroSecret) :=
    .intro (hrecord _ rfl) (hnamed rfl) (.single hkey hsecret)
  have hcredentials : Export.WritesKeys rules
      (Export.WritesKeys rules (Export.WritesSecret rules))
      (.object [(keysName, .object [(index, oneCredential)])]) oneKey.keys :=
    .intro (hrecord _ rfl) (hnamed rfl) (.single hcredential hkeys)
  have haddress : .string ['4', 'Z'] ∈ named "address" (oneKeyDocument index name) :=
    mem_named_iff.mpr ⟨addressName, rfl, List.mem_cons_of_mem _ List.mem_cons_self⟩
  exact .intro hname (hnamed rfl) hcredentials haddress rfl

theorem import_oneKey :
    ∃ account, importAccount (oneKeyText ['0'] ['n']) (some oneSender) = .ok account ∧
      account.format = .genesis ∧ account.address = oneSender := by
  have hraw : parseDocument (oneKeyText ['0'] ['n']) = some (oneKeyDocument ['0'] ['n']) := by
    rw [parseDocument, oneKeyText, String.toList_ofList]
    rfl
  have hwrites : Export.Writes .strict (oneKeyDocument ['0'] ['n']) oneKey :=
    writes_oneKeyDocument rfl rfl (fun _ h => h) rfl
  obtain ⟨hgenesis, -, -, hof⟩ := import_law hraw (by decide) (by decide) (some oneSender)
  obtain ⟨account, himport, hformat⟩ := hgenesis ⟨oneKey, .genesis hwrites, oneKey_isImportable⟩
  exact ⟨account, himport, hformat, (hof account himport).1 oneSender rfl⟩

/-- An index that is spelled by its code. -/
def escapedZero : Spelling := ['\\', 'u', '0', '0', '3', '0']

/-- A name that stands for no text. -/
def halfPair : Spelling := ['\\', 'u', 'd', '8', '0', '0']

/-- Documents that say what others are imported for, but are not imported. -/
theorem not_imported_for_spelling :
    (∃ d, parseDocument (oneKeyText escapedZero ['n']) = some d ∧ isDistinct d = true ∧
      recordsAsObjects d = true ∧ Imports .lax .genesis d (some oneSender) ∧
      importAccount (oneKeyText escapedZero ['n']) (some oneSender) = .error .malformed) ∧
    ∃ d, parseDocument (oneKeyText ['0'] halfPair) = some d ∧ isDistinct d = true ∧
      recordsAsObjects d = true ∧ Imports .lax .genesis d (some oneSender) ∧
      importAccount (oneKeyText ['0'] halfPair) (some oneSender) = .error .malformed := by
  have hescaped : parseDocument (oneKeyText escapedZero ['n']) =
      some (oneKeyDocument escapedZero ['n']) := by
    rw [parseDocument, oneKeyText, String.toList_ofList]
    rfl
  have hhalf : parseDocument (oneKeyText ['0'] halfPair) =
      some (oneKeyDocument ['0'] halfPair) := by
    rw [parseDocument, oneKeyText, String.toList_ofList]
    rfl
  have hwrites {index name : Spelling} (hindex : Export.Rules.lax.index index 0) :
      Imports .lax .genesis (oneKeyDocument index name) (some oneSender) :=
    ⟨oneKey, .genesis (writes_oneKeyDocument hindex rfl (fun _ _ => trivial) trivial),
      oneKey_isImportable⟩
  refine ⟨⟨_, hescaped, by decide, by decide, hwrites rfl, ?_⟩,
    _, hhalf, by decide, by decide, hwrites rfl, ?_⟩
  · rw [importAccount, hescaped]
    rfl
  · rw [importAccount, hhalf]
    rfl

end AccountTx.Wallet
