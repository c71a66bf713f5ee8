import RosBridge.Lib.Interleaving
import RosBridge.Lib.JsonTree
/-!
# Persistent local credentials

`scripts/credential-store.mjs`: `readCredential` and `ensureCredential` as threads of
file-system operations, and what each operation does. The directories above a store are
not part of the state, as anybody may change them: what is found there is arbitrary. Every
operation may fail, for any reason, and a call may stop at any of them.
-/

namespace RosBridge.Scripts

open Lib JsString Thread

/-- The components of an absolute path, the last first. -/
abbrev Path := List JsString

/-- `path.dirname`. The root is its own. -/
def dirname : Path → Path
  | [] => []
  | _ :: parent => parent

/-- What is thrown: by the file system, with a code, or otherwise. -/
inductive Failure where
  | system (code : String)
  | plain (message : String)
  deriving DecidableEq

def Failure.code : Failure → Option String
  | system code => some code
  | plain _ => none

/-- What `lstat` tells of a component of a path. -/
structure Entry where
  isDirectory : Bool
  uid : Nat
  mode : Nat

/-- What `stat` tells of an open file. -/
structure Stats where
  isFile : Bool
  uid : Nat
  mode : Nat
  size : Nat

inductive Handle where
  | file (inode : Nat)
  | directory

/-- The operations on the file system. A staging directory has a number for its name. -/
inductive Op where
  | lstat (path : Path)
  | mkdir (path : Path)
  | openFile (path : Path)
  | fstat (inode : Nat)
  | readFile (inode : Nat)
  | close (handle : Handle)
  | openDirectory (path : Path)
  | sync (handle : Handle)
  | mkdtemp (directory : Path)
  | create (staging : Nat)
  | writeFile (inode : Nat) (data : List UInt8)
  | link (staging : Nat) (path : Path)
  | rm (staging : Nat)

/-- What an operation gives. -/
def Res : Op → Type
  | .lstat _ => Entry
  | .openFile _ => Nat
  | .fstat _ => Stats
  | .readFile _ => List UInt8
  | .mkdtemp _ => Nat
  | .create _ => Nat
  | _ => Unit

abbrev Script (α : Type) := Thread Op Res Failure α

namespace Fs

def lstat (path : Path) : Script Entry := call (Op.lstat path)
def mkdir (path : Path) : Script Unit := call (Op.mkdir path)
def openFile (path : Path) : Script Nat := call (Op.openFile path)
def fstat (inode : Nat) : Script Stats := call (Op.fstat inode)
def readFile (inode : Nat) : Script (List UInt8) := call (Op.readFile inode)
def close (handle : Handle) : Script Unit := call (Op.close handle)
def openDirectory (path : Path) : Script Unit := call (Op.openDirectory path)
def sync (handle : Handle) : Script Unit := call (Op.sync handle)
def mkdtemp (directory : Path) : Script Nat := call (Op.mkdtemp directory)
def create (staging : Nat) : Script Nat := call (Op.create staging)
def writeFile (inode : Nat) (data : List UInt8) : Script Unit := call (Op.writeFile inode data)
def link (staging : Nat) (path : Path) : Script Unit := call (Op.link staging path)
def rm (staging : Nat) : Script Unit := call (Op.rm staging)

end Fs

/-! ## Contents -/

/-- A character that is not complete: its bits so far, how many bytes are missing, and the
bounds of the next one. -/
structure Partial where
  bits : Nat
  missing : Nat
  lower : Nat
  upper : Nat

/-- The first byte of a character. -/
def lead (b : UInt8) : JsString × Option Partial :=
  let n := b.toNat
  if n < 0x80 then ([UInt16.ofNat n], none)
  else if 0xC2 ≤ n ∧ n ≤ 0xDF then ([], some ⟨n - 0xC0, 1, 0x80, 0xBF⟩)
  else if 0xE0 ≤ n ∧ n ≤ 0xEF then ([], some ⟨n - 0xE0, 2, if n = 0xE0 then 0xA0 else 0x80, if n = 0xED then 0x9F else 0xBF⟩)
  else if 0xF0 ≤ n ∧ n ≤ 0xF4 then ([], some ⟨n - 0xF0, 3, if n = 0xF0 then 0x90 else 0x80, if n = 0xF4 then 0x8F else 0xBF⟩)
  else ([0xFFFD], none)

/-- A byte after `state`. One that does not continue a character ends it as a replacement. -/
def decodeByte (state : Option Partial) (b : UInt8) : JsString × Option Partial :=
  match state with
  | none => lead b
  | some part =>
    if part.lower ≤ b.toNat ∧ b.toNat ≤ part.upper then
      let bits := part.bits * 64 + (b.toNat - 0x80)
      if part.missing = 1 then (utf16Char (Char.ofNat bits), none) else ([], some ⟨bits, part.missing - 1, 0x80, 0xBF⟩)
    else (0xFFFD :: (lead b).1, (lead b).2)

def decodeFrom (state : Option Partial) : List UInt8 → JsString
  | [] => if state.isSome then [0xFFFD] else []
  | b :: rest => (decodeByte state b).1 ++ decodeFrom (decodeByte state b).2 rest

/-- `toString('utf8')`. -/
def decodeUtf8 (bytes : List UInt8) : JsString := decodeFrom none bytes

/-- `content.replace(/\r?\n$/, '')`. -/
def stripNewline (content : JsString) : JsString :=
  match content.reverse with
  | 0x0a :: 0x0d :: rest => rest.reverse
  | 0x0a :: rest => rest.reverse
  | _ => content

/-- A letter, a digit, a slash or one of `._~+-`. -/
def inToken (u : UInt16) : Bool :=
  (0x41 ≤ u && u ≤ 0x5a) || (0x61 ≤ u && u ≤ 0x7a) || (0x30 ≤ u && u ≤ 0x39) || u = 0x2e || u = 0x5f || u = 0x7e || u = 0x2b ||
    u = 0x2f || u = 0x2d

/-- Such characters, at least one, and then only `=`; and the length. -/
def isCredential (value : JsString) : Bool :=
  32 ≤ value.length && value.length ≤ 4096 && value.head?.any inToken && (value.dropWhile inToken).all (· = 0x3d)

/-- `size < 32 || size > 4096` and what else is checked before reading. -/
def Stats.valid (getuid : Nat) (entry : Stats) : Prop :=
  entry.isFile = true ∧ entry.uid = getuid ∧ entry.mode % 0o10000 = 0o600 ∧ 32 ≤ entry.size ∧ entry.size ≤ 4096

instance (getuid : Nat) (entry : Stats) : Decidable (entry.valid getuid) := inferInstanceAs (Decidable (_ ∧ _))

/-- `randomBytes(32).toString('hex') + '\n'`, as bytes. -/
def hexLine (random : List UInt8) : List UInt8 :=
  (random.flatMap fun b => [(Tree.nibble (b.toNat / 16)).toUInt8, (Tree.nibble (b.toNat % 16)).toUInt8]) ++ [0x0a]

/-! ## The script -/

/-- Reject unsupported paths before I/O. -/
def credentialPath (resolve : JsString → Path) (value : JsString) : Script Path := do
  throwIf (value.length = 0 ∨ 0 ∈ value) (Failure.plain "")
  return resolve value

/-- Every existing path component must be a directory. -/
def checkComponent (directory : Path) : Script Unit :=
  (do
    let entry ← Fs.lstat directory
    throwIf (entry.isDirectory = false) (Failure.plain "")).orCatch fun error =>
  throwIf (error.code ≠ some "ENOENT") error

/-- Reject symlink ancestors without following them. -/
def checkAncestors : Path → Script Unit
  | [] => checkComponent []
  | name :: parent => do
    checkAncestors parent
    checkComponent (name :: parent)

/-- Check the containing directory's ownership and write permissions. -/
def checkDirectory (getuid : Nat) (directory : Path) : Script Unit := do
  let entry ← Fs.lstat directory
  throwIf (entry.isDirectory = false ∨ entry.uid ≠ getuid ∨ entry.mode &&& 0o022 ≠ 0) (Failure.plain "")

/-- Read a bounded regular file. -/
def readStored (getuid : Nat) (filename : Path) : Script JsString := do
  let file ← Fs.openFile filename
  (do
    let entry ← Fs.fstat file
    -- Size and permissions are checked before reading; no FIFO/device can block waiting for data.
    throwIf (¬entry.valid getuid) (Failure.plain "")
    let content ← Fs.readFile file
    let value := stripNewline (decodeUtf8 content)
    throwIf (isCredential value = false) (Failure.plain "")
    return value).andFinally (Fs.close (.file file))

def syncDirectory (directory : Path) : Script Unit := do
  Fs.openDirectory directory
  (Fs.sync .directory).andFinally (Fs.close .directory)

/-- Persist the credential entry and every ancestor entry. -/
def syncDirectoryTree : Path → Script Unit
  | [] => syncDirectory []
  | name :: parent => do
    syncDirectory (name :: parent)
    syncDirectoryTree parent

/-- Read and persist a completed store. -/
def readDurable (getuid : Nat) (filename : Path) : Script JsString := do
  let credential ← readStored getuid filename
  -- Existing files can belong to a concurrent initializer whose directory sync has not finished yet.
  syncDirectoryTree (dirname filename)
  return credential

def unavailable : Failure := .plain "credential_store_unavailable"

/-- Read an existing private credential. -/
def readCredential (resolve : JsString → Path) (getuid : Nat) (value : JsString) : Script JsString :=
  (do
    let filename ← credentialPath resolve value
    checkAncestors (dirname filename)
    checkDirectory getuid (dirname filename)
    readStored getuid filename).orCatch fun _ =>
  fail unavailable

/-- The candidate is written, whole, before it is published. -/
def writeCandidate (staging : Nat) (random : List UInt8) : Script Unit := do
  let file ← Fs.create staging
  Thread.andFinally
    (do
      Fs.writeFile file (hexLine random)
      Fs.sync (.file file))
    (Fs.close (.file file))

/-- `fs.link`; another caller may have installed a credential first. -/
def publish (staging : Nat) (filename : Path) : Script Unit :=
  (Fs.link staging filename).orCatch fun error => throwIf (error.code ≠ some "EEXIST") error

/-- What follows where no store is there. -/
def createOnce (getuid : Nat) (random : List UInt8) (filename : Path) : Script JsString := do
  let staging ← Fs.mkdtemp (dirname filename)
  Thread.andFinally
    (do
      writeCandidate staging random
      publish staging filename
      readDurable getuid filename)
    (Fs.rm staging)

/-- Create once or return the winner of concurrent creation. -/
def ensureCredential (resolve : JsString → Path) (getuid : Nat) (random : List UInt8) (value : JsString) : Script JsString :=
  (do
    let filename ← credentialPath resolve value
    let directory := dirname filename
    checkAncestors directory
    Fs.mkdir directory
    checkDirectory getuid directory
    (readDurable getuid filename).orCatch fun error => do
      throwIf (error.code ≠ some "ENOENT") error
      -- Publish a fully written inode with link's atomic no-replace semantics.
      createOnce getuid random filename).orCatch fun _ =>
  fail unavailable

end RosBridge.Scripts
