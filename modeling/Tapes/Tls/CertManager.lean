import Tapes.Js.Text
import Tapes.Machine.Run

namespace Tapes.Tls

open Tapes.Js

/-! The TLS files of the sync server: what a call reads, and the writes it makes one after the
other. RSA is left out: a key pair is a number, and a certificate says which one signed it. -/

abbrev Key := Nat

/-- `lanIp` is the address among its names. -/
structure Certificate where
  publicKey : Key
  issuedBy : Key
  lanIp : Option JsString
deriving DecidableEq

/-- `notAfter` is `none` where it is missing or no date. -/
structure CertMeta where
  lanIp : Option JsString
  notAfter : Option Int
deriving DecidableEq

/-- A chain is stored with its leaf first. -/
structure TlsFiles where
  rootKey : Option Key
  rootCert : Option Certificate
  key : Option Key
  cert : Option (List Certificate)
  certMeta : Option CertMeta
deriving DecidableEq

structure TlsMaterial where
  key : Key
  cert : List Certificate
deriving DecidableEq

inductive FileWrite where
  | rootKey (key : Key)
  | rootCert (cert : Certificate)
  | key (key : Key)
  | cert (chain : List Certificate)
  | certMeta (written : CertMeta)
deriving DecidableEq

def TlsFiles.write (files : TlsFiles) : FileWrite → TlsFiles
  | .rootKey key => { files with rootKey := some key }
  | .rootCert cert => { files with rootCert := some cert }
  | .key key => { files with key := some key }
  | .cert chain => { files with cert := some chain }
  | .certMeta written => { files with certMeta := some written }

def leafRenewMs : Int := 30 * 24 * 60 * 60 * 1000

/-- The names an address is given: the empty one is none. -/
def named (lanIp : Option JsString) : Option JsString := lanIp.filter (· ≠ [])

def mintRoot (key : Key) : Certificate := ⟨key, key, none⟩

def issueLeaf (root key : Key) (lanIp : Option JsString) : Certificate := ⟨key, root, named lanIp⟩

structure Root where
  key : Key
  cert : Certificate
  minted : Bool

def ensureRoot (files : TlsFiles) (fresh : Key) : Root :=
  match files.rootKey, files.rootCert with
  | some key, some cert => ⟨key, cert, false⟩
  | _, _ => ⟨fresh, mintRoot fresh, true⟩

def Root.writes (root : Root) : List FileWrite :=
  if root.minted then [.rootKey root.key, .rootCert root.cert] else []

def leafIsCurrent (files : TlsFiles) (lanIp : Option JsString) (now : Int) : Bool :=
  files.key.isSome && files.cert.isSome && match files.certMeta with
    | none => false
    | some stored => decide (stored.lanIp = lanIp) && match stored.notAfter with
        | none => false
        | some notAfter => decide (leafRenewMs < notAfter - now)

def storedLeaf (files : TlsFiles) : Option TlsMaterial :=
  match files.key, files.cert with
  | some key, some cert => some ⟨key, cert⟩
  | _, _ => none

/-- What a call returns, and what it has written by then. `fresh` and the next are the keys it makes,
and `leafNotAfter` the end of a leaf that is issued now. -/
def ensureSyncServerCert (leafNotAfter : Int → Int) (files : TlsFiles) (fresh : Key)
    (lanIp : Option JsString) (now : Int) : TlsMaterial × List FileWrite :=
  let root := ensureRoot files fresh
  let stored := if !root.minted && leafIsCurrent files lanIp now then storedLeaf files else none
  match stored with
  | some material => (material, root.writes)
  | none =>
      let leaf := issueLeaf root.key (fresh + 1) lanIp
      let chain := [leaf, root.cert]
      (⟨fresh + 1, chain⟩, root.writes ++
        [.key (fresh + 1), .cert chain, .certMeta ⟨lanIp, some (leafNotAfter now)⟩])

/-- Issued by the stored root. That the root and the leaf are valid by their dates, which the chain is
checked for too, is left out: it can fail where the clock is set back behind a `notBefore`. -/
def isSyncServerCert (files : TlsFiles) (cert : Certificate) : Bool :=
  match files.rootCert with
  | none => false
  | some root => cert.issuedBy = root.publicKey

/-! ## Runs -/

/-- `leafFor` is the address of the leaf in `cert.pem`, and is `none` once `key.pem` or
`root-cert.pem` has been written after it. -/
structure Install where
  files : TlsFiles
  fresh : Key
  leafFor : Option (Option JsString)

def leafForAfter (leafFor : Option (Option JsString)) : FileWrite → Option (Option JsString)
  | .rootCert _ | .key _ => none
  | .cert chain => chain.head?.map Certificate.lanIp
  | .rootKey _ | .certMeta _ => leafFor

/-- Whatever a call has written, the keys it made are not made again. -/
def Install.perform (install : Install) (writes : List FileWrite) : Install :=
  ⟨writes.foldl TlsFiles.write install.files, install.fresh + 2,
    writes.foldl leafForAfter install.leafFor⟩

def Install.ensure (leafNotAfter : Int → Int) (install : Install) (lanIp : Option JsString)
    (now : Int) : TlsMaterial × List FileWrite :=
  ensureSyncServerCert leafNotAfter install.files install.fresh lanIp now

inductive InstallAction where
  | call (lanIp : Option JsString) (now : Int)
  /-- The process ends after so many writes of the call. -/
  | killed (lanIp : Option JsString) (now : Int) (count : Nat)

def installStep (leafNotAfter : Int → Int) (install : Install) : InstallAction → Option Install
  | .call lanIp now => some (install.perform (install.ensure leafNotAfter lanIp now).2)
  | .killed lanIp now count =>
      some (install.perform ((install.ensure leafNotAfter lanIp now).2.take count))

end Tapes.Tls
