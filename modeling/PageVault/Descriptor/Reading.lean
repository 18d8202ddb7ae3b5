import PageVault.Descriptor.Basic
import PageVault.Markup.Event

/-!
# Reading a descriptor

A document is walked event by event.  Only elements that matter are kept, by
namespace and local name, so that any choice of qualifiers reads the same; of the
elements that may appear once the first counts.  When the document has ended, the
kept attributes are turned into a `Descriptor`, or into the first thing that is
wrong with them.

§1 what is kept · §2 one element · §3 the walk · §4 from what is kept to the
descriptor · §5 from bytes.
-/

namespace PageVault.Descriptor

open Markup

/-! ## §1  What is kept -/

/-- A key encryptor, while its content is being read. -/
structure OpenEncryptor where
  uri : Option String
  /-- The attributes of its wrapped key, if that is for a password. -/
  password : Option Entries
  /-- The attributes of its wrapped key, if that is for a certificate. -/
  certificate : Option Entries
deriving DecidableEq

/-- What has been kept of a document so far. -/
structure Gathered where
  sawRoot : Bool
  keyData : Option Entries
  dataIntegrity : Option Entries
  sawKeyEncryptors : Bool
  keyEncryptors : List OpenEncryptor
deriving DecidableEq

def Gathered.nothing : Gathered :=
  ⟨false, none, none, false, []⟩

/-- What an open element means for the elements in it. -/
inductive Region where
  | keyEncryptors
  | keyEncryptor
  | other
deriving DecidableEq

/-! ## §2  One element -/

/-- The wrapped key of the latest key encryptor, if it has none of that kind yet. -/
def Gathered.addEncryptedKey (g : Gathered) (uri : String) (entries : Entries) : Gathered :=
  match g.keyEncryptors with
  | [] => g
  | latest :: earlier =>
      if uri = passwordNamespace ∧ latest.password = none then
        { g with keyEncryptors := { latest with password := some entries } :: earlier }
      else if uri = certificateNamespace ∧ latest.certificate = none then
        { g with keyEncryptors := { latest with certificate := some entries } :: earlier }
      else g

/-- An element of the descriptor's own namespace, below the root. -/
def Gathered.visitOwn (g : Gathered) (opened : List Region) (e : Resolved) : Gathered × Region :=
  if e.localName = "keyData" ∧ g.keyData = none then
    ({ g with keyData := some ⟨"keyData", e.values⟩ }, .other)
  else if e.localName = "dataIntegrity" ∧ g.dataIntegrity = none then
    ({ g with dataIntegrity := some ⟨"dataIntegrity", e.values⟩ }, .other)
  else if e.localName = "keyEncryptors" ∧ g.sawKeyEncryptors = false then
    ({ g with sawKeyEncryptors := true }, .keyEncryptors)
  else if e.localName = "keyEncryptor" ∧ .keyEncryptors ∈ opened then
    let uri := Entries.get? ⟨"keyEncryptor", e.values⟩ "uri"
    ({ g with keyEncryptors := ⟨uri, none, none⟩ :: g.keyEncryptors }, .keyEncryptor)
  else (g, .other)

/-- An element of another namespace, below the root. -/
def Gathered.visitForeign (g : Gathered) (opened : List Region) (e : Resolved) : Gathered :=
  if e.localName = "encryptedKey" ∧ .keyEncryptor ∈ opened then
    g.addEncryptedKey e.uri ⟨"encryptedKey", e.values⟩
  else g

/-- One element within open elements of the given regions: what is kept after it,
and its own region.  The first element of a document is its root. -/
def Gathered.visit (g : Gathered) (opened : List Region) (e : Resolved) :
    Except Error (Gathered × Region) :=
  if g.sawRoot = false then
    if e.localName = "encryption" ∧ e.uri = encryptionNamespace then
      .ok ({ g with sawRoot := true }, .other)
    else .error (.configuration (.unexpectedRoot e.written))
  else if e.uri = encryptionNamespace then .ok (g.visitOwn opened e)
  else .ok (g.visitForeign opened e, .other)

/-! ## §3  The walk -/

/-- A point in the walk through a document. -/
structure Walk where
  /-- The declarations of the open elements, innermost first. -/
  scopes : Scopes
  /-- The regions of the open elements, innermost first. -/
  opened : List Region
  gathered : Gathered
deriving DecidableEq

namespace Walk

def start : Walk :=
  ⟨[], [], .nothing⟩

def step (w : Walk) : Event → Except Error Walk
  | .start e => do
      let scopes := e.declarations :: w.scopes
      let (g, region) ← w.gathered.visit w.opened (resolve scopes e)
      return ⟨scopes, region :: w.opened, g⟩
  | .empty e => do
      let (g, _) ← w.gathered.visit w.opened (resolve (e.declarations :: w.scopes) e)
      return { w with gathered := g }
  | .close => .ok { w with scopes := w.scopes.tail, opened := w.opened.tail }

def run : Walk → List Event → Except Error Walk
  | w, [] => .ok w
  | w, e :: es => do run (← w.step e) es

end Walk

/-! ## §4  From what is kept to the descriptor -/

def required (entry parent : String) : Option Entries → Except Error Entries
  | some entries => .ok entries
  | none => .error (.configuration (.missingEntry entry parent))

def OpenEncryptor.build (k : OpenEncryptor) : Except Error KeyEncryptor :=
  match k.uri with
  | none => .error (.configuration (.missingEntry "uri" "keyEncryptor"))
  | some uri =>
      if uri = passwordNamespace then do
        let entries ← required "encryptedKey" "keyEncryptor" k.password
        return .password (← entries.passwordEncryptor)
      else if uri = certificateNamespace then do
        let entries ← required "encryptedKey" "keyEncryptor" k.certificate
        return .certificate (← entries.certificateEncryptor)
      else .error (.unsupported (.keyEncryptorKind uri))

def integrityOf : Option Entries → Except Error (Option DataIntegrity)
  | some entries => do return some (← entries.dataIntegrity)
  | none => .ok none

def Gathered.buildEncryptors (g : Gathered) : Except Error (List KeyEncryptor) :=
  if g.sawKeyEncryptors then g.keyEncryptors.reverse.mapM OpenEncryptor.build
  else .error (.configuration (.missingEntry "keyEncryptors" "encryption"))

def Gathered.build (g : Gathered) : Except Error Descriptor :=
  if g.sawRoot then do
    let entries ← required "keyData" "encryption" g.keyData
    let keyData ← entries.cipherDescription
    let dataIntegrity ← integrityOf g.dataIntegrity
    let keyEncryptors ← g.buildEncryptors
    return { keyData, dataIntegrity, keyEncryptors }
  else .error (.format .descriptorWithoutRoot)

/-- The descriptor of a sequence of events that ran to its end. -/
def ofEvents (es : List Event) : Except Error Descriptor := do
  (← Walk.start.run es).gathered.build

/-! ## §5  From bytes -/

/-- The descriptor of what was read of a document.  What is wrong with the events
that were read comes before the reason why reading stopped. -/
def ofSequence (s : Sequence Event) : Except Error Descriptor := do
  let w ← Walk.start.run s.items
  match s.fault with
  | some fault => .error (.format fault)
  | none => w.gathered.build

/-- The text that a byte string holds: without a byte order mark in front and zero
bytes at the end, it has to be UTF-8. -/
def text? (b : Bytes) : Option (List Char) :=
  let unmarked :=
    match b with
    | 0xEF :: 0xBB :: 0xBF :: rest => rest
    | _ => b
  (String.fromUTF8? ⟨(Bytes.trimZeros unmarked).toArray⟩).map String.toList

def ofBytes (b : Bytes) : Except Error Descriptor :=
  match text? b with
  | some cs => ofSequence (events cs)
  | none => .error (.format .descriptorNotText)

end PageVault.Descriptor
