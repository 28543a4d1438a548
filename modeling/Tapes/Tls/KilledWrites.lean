import Tapes.Tls.CertManager

namespace Tapes.Tls

open Tapes.Js Tapes.Machine

/-! What a call returns after any calls, some of them killed between two writes. -/

/-- The key is the leaf's, the leaf is the stored root's, and it names the address. -/
def Consistent (files : TlsFiles) (lanIp : Option JsString) (material : TlsMaterial) : Prop :=
  ∃ leaf rest, material.cert = leaf :: rest ∧ material.key = leaf.publicKey ∧
    isSyncServerCert files leaf = true ∧ leaf.lanIp = named lanIp

/-- The call takes the leaf files as they are. -/
def TakesLeaf (files : TlsFiles) (lanIp : Option JsString) (now : Int) : Prop :=
  files.rootKey.isSome ∧ files.rootCert.isSome ∧ leafIsCurrent files lanIp now = true

/-- No root yet, and the leaf files as a version without one may have left them. -/
structure Install.Rootless (install : Install) : Prop where
  noRoot : install.files.rootCert = none
  unknown : install.leafFor = none
  oldKey : ∀ key, install.files.key = some key → key < install.fresh
  oldCert : ∀ chain, install.files.cert = some chain → ∀ cert ∈ chain,
    cert.publicKey < install.fresh ∧ cert.issuedBy < install.fresh

/-! ## The invariant -/

/-- Every key on disk is below `bound`. The leaf files match the root and the address of `leafFor`, and
if there is none, do not match. -/
structure Sound (files : TlsFiles) (leafFor : Option (Option JsString)) (bound : Key) : Prop where
  root : ∀ cert, files.rootCert = some cert →
    files.rootKey = some cert.publicKey ∧ cert.issuedBy = cert.publicKey ∧ cert.publicKey < bound
  oldKey : ∀ key, files.key = some key → key < bound
  oldCert : ∀ chain, files.cert = some chain → ∀ cert ∈ chain,
    cert.publicKey < bound ∧ cert.issuedBy < bound
  matched : ∀ lanIp, leafFor = some lanIp → ∃ leaf rest root, files.cert = some (leaf :: rest) ∧
    files.key = some leaf.publicKey ∧ files.rootCert = some root ∧
      leaf.issuedBy = root.publicKey ∧ leaf.lanIp = lanIp
  unmatched : leafFor = none → ∀ key leaf rest root, files.key = some key →
    files.cert = some (leaf :: rest) → files.rootCert = some root →
      key ≠ leaf.publicKey ∨ leaf.issuedBy ≠ root.publicKey

variable {files : TlsFiles} {leafFor : Option (Option JsString)} {bound next leafKey : Key}
  {root : Certificate} {lanIp : Option JsString} {now : Int} {leafNotAfter : Int → Int}

theorem Sound.raise (sound : Sound files leafFor bound) (higher : bound ≤ next) :
    Sound files leafFor next := by
  refine ⟨?_, ?_, ?_, sound.matched, sound.unmatched⟩
  · intro cert stored
    obtain ⟨same, own, small⟩ := sound.root cert stored
    exact ⟨same, own, Nat.lt_of_lt_of_le small higher⟩
  · intro key stored
    exact Nat.lt_of_lt_of_le (sound.oldKey key stored) higher
  · intro chain stored cert inside
    obtain ⟨small, issuer⟩ := sound.oldCert chain stored cert inside
    exact ⟨Nat.lt_of_lt_of_le small higher, Nat.lt_of_lt_of_le issuer higher⟩

theorem Sound.writeRootKey (sound : Sound files leafFor bound) (noRoot : files.rootCert = none)
    (key : Key) : Sound (files.write (.rootKey key)) leafFor bound := by
  refine ⟨?_, sound.oldKey, sound.oldCert, sound.matched, sound.unmatched⟩
  intro cert stored
  replace stored : files.rootCert = some cert := stored
  rw [noRoot] at stored
  cases stored

/-- A new root issued none of the leaves there are. -/
theorem Sound.writeRootCert (sound : Sound files leafFor bound)
    (stored : files.rootKey = some bound) :
    Sound (files.write (.rootCert (mintRoot bound))) none (bound + 1) := by
  have raised := sound.raise (Nat.le_succ bound)
  refine ⟨?_, raised.oldKey, raised.oldCert, ?_, ?_⟩
  · intro cert same
    cases same
    exact ⟨stored, rfl, Nat.lt_succ_self bound⟩
  · intro lanIp absent
    cases absent
  · intro _ key leaf rest root _ chain same
    cases same
    have old := (sound.oldCert _ chain leaf List.mem_cons_self).2
    exact .inr (Nat.ne_of_lt old)

/-- A new key is not that of the leaf there is. -/
theorem Sound.writeKey (sound : Sound files leafFor bound) :
    Sound (files.write (.key bound)) none (bound + 1) := by
  have raised := sound.raise (Nat.le_succ bound)
  refine ⟨raised.root, ?_, raised.oldCert, ?_, ?_⟩
  · intro key same
    cases same
    exact Nat.lt_succ_self bound
  · intro lanIp absent
    cases absent
  · intro _ key leaf rest root same chain _
    cases same
    have old := (sound.oldCert _ chain leaf List.mem_cons_self).1
    exact .inl (Nat.ne_of_gt old)

theorem Sound.writeCert (sound : Sound files leafFor bound) (isKey : files.key = some leafKey)
    (isRoot : files.rootCert = some root) (lanIp : Option JsString) :
    Sound (files.write (.cert [issueLeaf root.publicKey leafKey lanIp, root]))
      (some (named lanIp)) bound := by
  obtain ⟨_, own, below⟩ := sound.root root isRoot
  refine ⟨sound.root, sound.oldKey, ?_, ?_, ?_⟩
  · intro chain same cert inside
    cases same
    obtain rfl | inside := List.mem_cons.mp inside
    · exact ⟨sound.oldKey leafKey isKey, below⟩
    · rw [List.mem_singleton.mp inside]
      exact ⟨below, own ▸ below⟩
  · intro other same
    cases same
    exact ⟨_, _, root, rfl, isKey, isRoot, rfl, rfl⟩
  · intro absent
    cases absent

theorem Sound.writeMeta (sound : Sound files leafFor bound) (written : CertMeta) :
    Sound (files.write (.certMeta written)) leafFor bound :=
  ⟨sound.root, sound.oldKey, sound.oldCert, sound.matched, sound.unmatched⟩

/-! ## The writes of one call -/

/-- The files of a leaf, in the order they are written. -/
def leafWrites (root : Certificate) (leafKey : Key) (lanIp : Option JsString)
    (notAfter : Int) : List FileWrite :=
  [.key leafKey, .cert [issueLeaf root.publicKey leafKey lanIp, root],
    .certMeta ⟨lanIp, some notAfter⟩]

def issued (root : Certificate) (leafKey : Key) (lanIp : Option JsString) : TlsMaterial :=
  ⟨leafKey, [issueLeaf root.publicKey leafKey lanIp, root]⟩

def rootWrites (key : Key) : List FileWrite := [.rootKey key, .rootCert (mintRoot key)]

theorem ensure_mints {fresh : Key} (noRoot : files.rootCert = none) :
    ensureSyncServerCert leafNotAfter files fresh lanIp now =
      (issued (mintRoot fresh) (fresh + 1) lanIp,
        rootWrites fresh ++ leafWrites (mintRoot fresh) (fresh + 1) lanIp (leafNotAfter now)) := by
  have minted : ensureRoot files fresh = ⟨fresh, mintRoot fresh, true⟩ := by
    unfold ensureRoot
    rw [noRoot]
    cases files.rootKey <;> rfl
  unfold ensureSyncServerCert
  rw [minted]
  rfl

theorem ensureRoot_stored (sound : Sound files leafFor bound)
    (isRoot : files.rootCert = some root) (fresh : Key) :
    ensureRoot files fresh = ⟨root.publicKey, root, false⟩ := by
  unfold ensureRoot
  rw [isRoot, (sound.root root isRoot).1]

theorem ensure_renews {fresh : Key} (sound : Sound files leafFor bound)
    (isRoot : files.rootCert = some root) (stale : leafIsCurrent files lanIp now = false) :
    ensureSyncServerCert leafNotAfter files fresh lanIp now =
      (issued root (fresh + 1) lanIp,
        leafWrites root (fresh + 1) lanIp (leafNotAfter now)) := by
  unfold ensureSyncServerCert
  rw [ensureRoot_stored sound isRoot fresh, stale]
  rfl

theorem storedLeaf_of_current (current : leafIsCurrent files lanIp now = true) :
    ∃ key chain, files.key = some key ∧ files.cert = some chain ∧
      storedLeaf files = some ⟨key, chain⟩ := by
  unfold leafIsCurrent at current
  unfold storedLeaf
  cases isKey : files.key with
  | none => simp [isKey] at current
  | some key =>
      cases isChain : files.cert with
      | none => simp [isChain] at current
      | some chain => exact ⟨key, chain, rfl, rfl, rfl⟩

theorem ensure_takes {fresh : Key} {material : TlsMaterial} (sound : Sound files leafFor bound)
    (isRoot : files.rootCert = some root) (current : leafIsCurrent files lanIp now = true)
    (stored : storedLeaf files = some material) :
    ensureSyncServerCert leafNotAfter files fresh lanIp now = (material, []) := by
  unfold ensureSyncServerCert
  rw [ensureRoot_stored sound isRoot fresh, current]
  simp only [Bool.not_false, Bool.and_self, if_true, stored]
  rfl

theorem Sound.renewal (sound : Sound files leafFor bound) (isRoot : files.rootCert = some root)
    (lanIp : Option JsString) (notAfter : Int) (count : Nat) :
    Sound (((leafWrites root bound lanIp notAfter).take count).foldl TlsFiles.write files)
      (((leafWrites root bound lanIp notAfter).take count).foldl leafForAfter leafFor)
      (bound + 1) := by
  have key := sound.writeKey
  match count with
  | 0 => exact sound.raise (Nat.le_succ bound)
  | 1 => exact key
  | 2 => exact key.writeCert rfl isRoot lanIp
  | count + 3 =>
      rw [List.take_of_length_le (by simp [leafWrites])]
      exact (key.writeCert rfl isRoot lanIp).writeMeta _

theorem Sound.minting (sound : Sound files leafFor bound) (noRoot : files.rootCert = none)
    (lanIp : Option JsString) (notAfter : Int) (count : Nat) :
    let writes := (rootWrites bound ++ leafWrites (mintRoot bound) (bound + 1) lanIp notAfter).take
      count
    Sound (writes.foldl TlsFiles.write files) (writes.foldl leafForAfter leafFor) (bound + 2) := by
  have rootKey := sound.writeRootKey noRoot bound
  match count with
  | 0 => exact sound.raise (Nat.le_add_right bound 2)
  | 1 => exact rootKey.raise (Nat.le_add_right bound 2)
  | count + 2 => exact (rootKey.writeRootCert rfl).renewal rfl lanIp notAfter count

/-- Sound after any number of the writes of a call, so after all of them too. -/
theorem Sound.writes (sound : Sound files leafFor bound) (lanIp : Option JsString) (now : Int)
    (count : Nat) :
    let writes := (ensureSyncServerCert leafNotAfter files bound lanIp now).2.take count
    Sound (writes.foldl TlsFiles.write files) (writes.foldl leafForAfter leafFor) (bound + 2) := by
  cases isRoot : files.rootCert with
  | none =>
      rw [ensure_mints isRoot]
      exact sound.minting isRoot lanIp (leafNotAfter now) count
  | some root =>
      cases current : leafIsCurrent files lanIp now with
      | false =>
          rw [ensure_renews sound isRoot current]
          have raised := sound.raise (Nat.le_succ bound)
          exact raised.renewal isRoot lanIp (leafNotAfter now) count
      | true =>
          obtain ⟨key, chain, _, _, stored⟩ := storedLeaf_of_current current
          rw [ensure_takes sound isRoot current stored]
          have raised := sound.raise (Nat.le_add_right bound 2)
          simpa using raised

/-- Neither of the root's files is written once both are stored. -/
theorem Sound.keepsRoot (sound : Sound files leafFor bound) (isRoot : files.rootCert = some root)
    (lanIp : Option JsString) (now : Int) (count : Nat) :
    let after := ((ensureSyncServerCert leafNotAfter files bound lanIp now).2.take count).foldl
      TlsFiles.write files
    after.rootKey = files.rootKey ∧ after.rootCert = files.rootCert := by
  cases current : leafIsCurrent files lanIp now with
  | false =>
      rw [ensure_renews sound isRoot current]
      match count with
      | 0 | 1 | 2 => exact ⟨rfl, rfl⟩
      | count + 3 =>
          rw [List.take_of_length_le (by simp [leafWrites])]
          exact ⟨rfl, rfl⟩
  | true =>
      obtain ⟨key, chain, _, _, stored⟩ := storedLeaf_of_current current
      rw [ensure_takes sound isRoot current stored]
      simp

/-! ## Runs -/

def Install.sound (install : Install) : Prop := Sound install.files install.leafFor install.fresh

variable {start install after : Install} {action : InstallAction}

theorem Install.Rootless.sound (rootless : start.Rootless) : start.sound := by
  refine ⟨?_, rootless.oldKey, rootless.oldCert, ?_, ?_⟩
  · intro cert stored
    rw [rootless.noRoot] at stored
    cases stored
  · intro lanIp known
    rw [rootless.unknown] at known
    cases known
  · intro _ key leaf rest root _ _ stored
    rw [rootless.noRoot] at stored
    cases stored

/-- A call that is not killed does all its writes. -/
theorem installStep_eq (taken : installStep leafNotAfter install action = some after) :
    ∃ lanIp now count, after = install.perform
      ((install.ensure leafNotAfter lanIp now).2.take count) := by
  cases action with
  | call lanIp now =>
      cases taken
      exact ⟨lanIp, now, (install.ensure leafNotAfter lanIp now).2.length,
        by rw [List.take_length]⟩
  | killed lanIp now count =>
      cases taken
      exact ⟨lanIp, now, count, rfl⟩

theorem sound_of_reached (rootless : start.Rootless)
    (reached : Reaches (installStep leafNotAfter) anyAction start install) : install.sound := by
  refine reached.invariant Install.sound rootless.sound fun _ sound _ taken => ?_
  obtain ⟨lanIp, now, count, rfl⟩ := installStep_eq taken
  exact Sound.writes sound lanIp now count

theorem issued_consistent (isRoot : files.rootCert = some root) (leafKey : Key) :
    Consistent files lanIp (issued root leafKey lanIp) := by
  refine ⟨issueLeaf root.publicKey leafKey lanIp, [root], rfl, rfl, ?_, rfl⟩
  unfold isSyncServerCert
  rw [isRoot]
  simp [issueLeaf]

theorem Sound.taken_consistent_iff (sound : Sound files leafFor bound)
    (isRoot : files.rootCert = some root) {key : Key} {chain : List Certificate}
    (isKey : files.key = some key) (isChain : files.cert = some chain) :
    Consistent files lanIp ⟨key, chain⟩ ↔ leafFor = some (named lanIp) := by
  constructor
  · rintro ⟨leaf, rest, same, own, accepted, names⟩
    replace same : chain = leaf :: rest := same
    replace own : key = leaf.publicKey := own
    subst same own
    have byRoot : leaf.issuedBy = root.publicKey := by
      unfold isSyncServerCert at accepted
      rw [isRoot] at accepted
      exact of_decide_eq_true accepted
    cases known : leafFor with
    | none =>
        obtain other | other := sound.unmatched known _ leaf rest root isKey isChain isRoot
        · exact absurd rfl other
        · exact absurd byRoot other
    | some stored =>
        obtain ⟨first, others, _, sameChain, _, _, _, address⟩ := sound.matched stored known
        rw [isChain] at sameChain
        cases sameChain
        rw [← names, address]
  · intro known
    obtain ⟨leaf, rest, other, sameChain, sameKey, sameRoot, byRoot, address⟩ :=
      sound.matched _ known
    rw [isChain] at sameChain
    rw [isKey] at sameKey
    rw [isRoot] at sameRoot
    cases sameChain
    cases sameKey
    cases sameRoot
    refine ⟨leaf, rest, rfl, rfl, ?_, address⟩
    unfold isSyncServerCert
    rw [isRoot]
    exact decide_eq_true byRoot

/-- A call that makes a leaf returns it under the stored root, and one that takes the leaf returns
what the last calls have left in its files. The root stays once it is stored. -/
theorem consistent_iff (rootless : start.Rootless)
    (reached : Reaches (installStep leafNotAfter) anyAction start install) :
    (∀ lanIp now, Consistent (install.perform (install.ensure leafNotAfter lanIp now).2).files lanIp
        (install.ensure leafNotAfter lanIp now).1 ↔
      (TakesLeaf install.files lanIp now → install.leafFor = some (named lanIp))) ∧
    ∀ action after, installStep leafNotAfter install action = some after →
      install.files.rootKey.isSome → install.files.rootCert.isSome →
        after.files.rootKey = install.files.rootKey ∧
          after.files.rootCert = install.files.rootCert := by
  have sound := sound_of_reached rootless reached
  refine ⟨fun lanIp now => ?_, fun action after taken _ hasRoot => ?_⟩
  · cases isRoot : install.files.rootCert with
    | none =>
        have notTaken : ¬ TakesLeaf install.files lanIp now := fun takes => by
          rw [TakesLeaf, isRoot] at takes
          exact absurd takes.2.1 (by decide)
        rw [Install.ensure, ensure_mints isRoot]
        exact ⟨fun _ takes => absurd takes notTaken, fun _ => issued_consistent rfl _⟩
    | some root =>
        cases current : leafIsCurrent install.files lanIp now with
        | false =>
            have notTaken : ¬ TakesLeaf install.files lanIp now := fun takes => by
              rw [TakesLeaf, current] at takes
              exact absurd takes.2.2 (by decide)
            rw [Install.ensure, ensure_renews sound isRoot current]
            exact ⟨fun _ takes => absurd takes notTaken, fun _ => issued_consistent isRoot _⟩
        | true =>
            obtain ⟨key, chain, isKey, isChain, stored⟩ := storedLeaf_of_current current
            rw [Install.ensure, ensure_takes sound isRoot current stored]
            have takes : TakesLeaf install.files lanIp now :=
              ⟨by rw [(sound.root root isRoot).1]; rfl, by rw [isRoot]; rfl, current⟩
            have same : Consistent install.files lanIp ⟨key, chain⟩ ↔
                install.leafFor = some (named lanIp) :=
              sound.taken_consistent_iff isRoot isKey isChain
            exact ⟨fun consistent _ => same.mp consistent, fun known => same.mpr (known takes)⟩
  · obtain ⟨root, isRoot⟩ := Option.isSome_iff_exists.mp hasRoot
    obtain ⟨lanIp, now, count, rfl⟩ := installStep_eq taken
    exact sound.keepsRoot isRoot lanIp now count

/-! ## A call killed behind its first write -/

def newInstall : Install := ⟨⟨none, none, none, none, none⟩, 0, none⟩

def homeIp : Option JsString := some (js "192.168.1.7")

def yearLater (now : Int) : Int := now + 365 * 24 * 60 * 60 * 1000

theorem newInstall_rootless : newInstall.Rootless where
  noRoot := rfl
  unknown := rfl
  oldKey := by intro key absent; cases absent
  oldCert := by intro chain absent; cases absent

def homeInstall : Install := (installStep yearLater newInstall (.call homeIp 0)).getD newInstall

/-- Killed away from home, when it has written the new leaf's key. -/
def awayInstall : Install :=
  (installStep yearLater homeInstall (.killed (some (js "10.0.0.2")) 0 1)).getD newInstall

theorem awayInstall_reached :
    Reaches (installStep yearLater) anyAction newInstall awayInstall := by
  have home : Reaches (installStep yearLater) anyAction newInstall homeInstall :=
    Reaches.refl.tail trivial (rfl : installStep yearLater newInstall (.call homeIp 0) = _)
  exact home.tail trivial
    (rfl : installStep yearLater homeInstall (.killed (some (js "10.0.0.2")) 0 1) = _)

/-- Home again, the chain goes with a key that is not the leaf's. -/
theorem home_again_has_another_key :
    ¬ ∀ install, Reaches (installStep yearLater) anyAction newInstall install → ∀ lanIp now,
      Consistent (install.perform (install.ensure yearLater lanIp now).2).files lanIp
        (install.ensure yearLater lanIp now).1 := by
  intro always
  obtain ⟨leaf, rest, chain, own, _⟩ := always awayInstall awayInstall_reached homeIp 0
  have issued : (awayInstall.ensure yearLater homeIp 0).1.cert =
      [⟨1, 0, homeIp⟩, mintRoot 0] := by decide
  rw [issued] at chain
  cases chain
  exact absurd own (by decide)

theorem away_again_is_consistent :
    newInstall.Rootless ∧
    Consistent (awayInstall.perform (awayInstall.ensure yearLater none 0).2).files none
      (awayInstall.ensure yearLater none 0).1 :=
  ⟨newInstall_rootless, ((consistent_iff newInstall_rootless awayInstall_reached).1 none 0).mpr
    fun takes => absurd takes.2.2 (by decide)⟩

end Tapes.Tls
