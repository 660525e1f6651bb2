import SrvrOS.Lib.Edit

/-!
# Open files and their contents

`kernel/src/process.c` keeps one content per live path, which open descriptions share; each has its
own offset. A content starts as a snapshot of the file system's data and becomes a buffer when it
is to be changed. A flush writes it back, unless its name is gone.

What the file system and the allocator answer comes from a stream in the state.
-/

namespace SrvrOS.Files

open Lib Function

/-- `PROCESS_MAX_READ_FILES`. -/
abbrev ReadId := Fin 128

/-- `PROCESS_MAX_WRITE_FILES`. -/
abbrev WriteId := Fin 64

abbrev ContentId := Fin 192

instance neZero192 : NeZero 192 := ⟨by decide⟩

/-- `PROCESS_PATH_MAX`. -/
def pathMax : Nat := 1024

/-- A path in a buffer of `PROCESS_PATH_MAX` bytes; the last one ends the string. -/
structure Path where
  text : List UInt8
  fits : text.length < pathMax
deriving DecidableEq

def Path.empty : Path := ⟨[], by decide⟩

/-- `copy_process_path` between two such buffers. -/
def copyProcessPath (source : Path) : Option Path :=
  if source.text = [] then none else some source

/-- `PROCESS_WRITE_BUFFER_MAX`. -/
def writeBufferMax : Nat := 16 * 1024 * 1024

/-- The errors that the calls report. -/
inductive Errno where
  | fail | badf | inval | mfile | nfile | nomem | noent | isdir | notdir | exist | io | fbig
  | spipe | again | pipe | nolck | intr | busy | xdev | notsup | fault | overflow
deriving DecidableEq

/-- `struct process_file_content` without its node and metadata. -/
structure Content where
  refs : Nat := 0
  data : Store UInt8 := fun _ => 0
  size : Nat := 0
  capacity : Nat := 0
  owned : Bool := false
  dirty : Bool := false
  failed : Bool := false
  unlinked : Bool := false
  path : Path := .empty

def Content.bytes (content : Content) : List UInt8 := content.data.read 0 content.size

/-- The bytes that a read of `length` bytes at an offset copies. -/
def Content.readAt (content : Content) (offset length : Nat) : List UInt8 :=
  let count := min length (if offset ≤ content.size then content.size - offset else 0)
  content.data.read offset count

/-- Write at a position: the gap after the old end is cleared first. -/
def Content.patched (content : Content) (position : Nat) (bytes : List UInt8) : Content :=
  { content with
    data := (content.data.clear 0 content.size position).write position bytes
    size := max content.size (position + bytes.length)
    dirty := true }

def Content.truncated (content : Content) (length : Nat) : Content :=
  { content with data := content.data.clear 0 content.size length, size := length, dirty := true }

/-- `struct process_read_file`. -/
structure ReadFile where
  used : Bool := false
  directory : Bool := false
  refs : Nat := 0
  content : ContentId := 0
  offset : Nat := 0

/-- `struct process_write_file`; the access bits of `open_flags`. -/
structure WriteFile where
  used : Bool := false
  refs : Nat := 0
  readable : Bool := false
  writable : Bool := false
  append : Bool := false
  offset : Nat := 0
  content : ContentId := 0

/-- What a call outside this module answers: whether it succeeds and, if a write fails,
whether it can be retried. -/
structure Answer where
  ok : Bool
  retryable : Bool := false

/-- The file tables. -/
structure OpenFiles where
  contents : ContentId → Content := fun _ => {}
  readFiles : ReadId → ReadFile := fun _ => {}
  writeFiles : WriteId → WriteFile := fun _ => {}
  /-- The answers still to come. -/
  answers : Nat → Answer
  asked : Nat := 0
  /-- What has been handed to `exfat_write_file_retryable`, and from which content. -/
  flushed : List (ContentId × Path × List UInt8) := []

/-- A descriptor's reference to an open description. -/
inductive Handle where
  | read (id : ReadId)
  | write (id : WriteId)
deriving DecidableEq

variable (files : OpenFiles)

namespace OpenFiles

def setContent (id : ContentId) (content : Content) : OpenFiles :=
  { files with contents := update files.contents id content }

def setRead (id : ReadId) (file : ReadFile) : OpenFiles :=
  { files with readFiles := update files.readFiles id file }

def setWrite (id : WriteId) (file : WriteFile) : OpenFiles :=
  { files with writeFiles := update files.writeFiles id file }

def answer : Answer := files.answers files.asked

def ask : OpenFiles := { files with asked := files.asked + 1 }

/-! ## Contents -/

@[irreducible] def contentFind (path : Path) : Option ContentId :=
  Fin.find? fun id =>
    decide ((files.contents id).refs ≠ 0) && !(files.contents id).unlinked &&
      decide ((files.contents id).path = path)

def bufferOf (bytes : List UInt8) : Store UInt8 := fun index => bytes[index]?.getD 0

def contentAcquire (path : Path) (data : List UInt8) :
    Option ContentId × OpenFiles :=
  match files.contentFind path with
  | some id =>
    (some id, files.setContent id
      { files.contents id with refs := (files.contents id).refs + 1 })
  | none =>
    match Fin.find? fun id => decide ((files.contents id).refs = 0) with
    | none => (none, files)
    | some id =>
      let content : Content := { data := bufferOf data, size := data.length }
      match copyProcessPath path with
      | some copied =>
        (some id, files.setContent id { content with refs := 1, path := copied })
      | none => (none, files.setContent id content)

def contentFlush (id : ContentId) : Bool × OpenFiles :=
  let content := files.contents id
  if content.unlinked then (true, files.setContent id { content with dirty := false })
  else if content.failed then (false, files)
  else if !content.dirty then (true, files)
  else
    let asked :=
      { files.ask with flushed := files.flushed ++ [(id, content.path, content.bytes)] }
    if files.answer.ok then (true, asked.setContent id { content with dirty := false })
    else (false, asked.setContent id { content with failed := !files.answer.retryable })

def contentRelease (id : ContentId) : Bool × OpenFiles :=
  let content := files.contents id
  if content.refs = 0 then (false, files)
  else
    let lowered := files.setContent id { content with refs := content.refs - 1 }
    if content.refs - 1 ≠ 0 then (true, lowered)
    else
      let flushed := lowered.contentFlush id
      (flushed.1, flushed.2.setContent id {})

def doubled (capacity needed : Nat) : Nat → Nat
  | 0 => capacity
  | fuel + 1 => if capacity < needed then doubled (capacity * 2) needed fuel else capacity

def ensureWriteCapacity (id : ContentId) (needed : Nat) : Bool × OpenFiles :=
  let content := files.contents id
  if content.owned ∧ needed ≤ content.capacity then (true, files)
  else
    let needed := max needed content.size
    if writeBufferMax < needed then (false, files)
    else
      if !files.answer.ok then (false, files.ask)
      else
        (true, files.ask.setContent id { content with
          data := fun index => if index < content.size then content.data index else 0
          capacity :=
            doubled (if content.capacity ≠ 0 then content.capacity else 4096) needed needed
          owned := true })

/-! ## Descriptions -/

/-- The content of an open description: `file_content_for_fd`. -/
def contentOf : Handle → Option ContentId
  | .read id => if (files.readFiles id).used then some (files.readFiles id).content else none
  | .write id => if (files.writeFiles id).used then some (files.writeFiles id).content else none

/-- `read_file_ref` and `write_file_ref`. -/
def fileRef : Handle → OpenFiles
  | .read id =>
    let file := files.readFiles id
    if file.used then files.setRead id { file with refs := file.refs + 1 } else files
  | .write id =>
    let file := files.writeFiles id
    if file.used then files.setWrite id { file with refs := file.refs + 1 } else files

def readFileClose (id : ReadId) : Bool × OpenFiles :=
  let file := files.readFiles id
  if !file.used then (false, files)
  else if file.refs - 1 ≠ 0 then (true, files.setRead id { file with refs := file.refs - 1 })
  else
    let released := files.contentRelease file.content
    (released.1, released.2.setRead id {})

def writeFileClose (id : WriteId) : Bool × OpenFiles :=
  let file := files.writeFiles id
  if !file.used then (false, files)
  else if file.refs - 1 ≠ 0 then (true, files.setWrite id { file with refs := file.refs - 1 })
  else
    let flushed := files.contentFlush file.content
    let released := flushed.2.contentRelease file.content
    (flushed.1 && released.1, released.2.setWrite id {})

def fileClose : Handle → Bool × OpenFiles
  | .read id => files.readFileClose id
  | .write id => files.writeFileClose id

/-! ## Opening -/

end OpenFiles

/-- The flags of `process_file_open_flags`; `other` stands for bits outside its mask. -/
structure OpenFlags where
  read : Bool := false
  write : Bool := false
  create : Bool := false
  trunc : Bool := false
  append : Bool := false
  excl : Bool := false
  cloexec : Bool := false
  directory : Bool := false
  permissions : Bool := false
  mode : Nat := 0
  other : Bool := false

/-- What `vfs_lookup` finds: a directory, or a file with what `vfs_read_all` returns. -/
structure Node where
  path : Path
  directory : Bool
  data : Option (List UInt8)

namespace OpenFiles

/-- `process_file_alloc`; the descriptor table has a free entry or not. -/
def fileAlloc (node : Node) (data : List UInt8) (room : Bool) :
    Except Errno Handle × OpenFiles :=
  if !room then (.error .fail, files)
  else
    match Fin.find? fun id => !(files.readFiles id).used with
    | none => (.error .fail, files)
    | some id =>
      match files.contentAcquire node.path data with
      | (none, files) => (.error .nomem, files)
      | (some content, files) =>
        (.ok (.read id), files.setRead id
          { used := true, refs := 1, directory := node.directory, content := content })

/-- `process_file_open_write_raw` after `write_file_alloc`. -/
def openWriteAt (id : WriteId) (path : Path) (flags : OpenFlags)
    (data : List UInt8) (ensureEmpty : Bool) : Except Errno Handle × OpenFiles :=
  match files.contentAcquire path data with
  | (none, files) => (.error .nomem, files)
  | (some content, files) =>
    let reserved :=
      if (copyProcessPath path).isNone then (false, files)
      else if flags.write then files.ensureWriteCapacity content (files.contents content).size
      else (true, files)
    if !reserved.1 then (.error .nomem, (reserved.2.contentRelease content).2)
    else if ensureEmpty && !reserved.2.answer.ok then
      (.error .io, (reserved.2.ask.contentRelease content).2)
    else
      let written :=
        if ensureEmpty then
          reserved.2.ask.setContent content
            { reserved.2.contents content with size := 0, dirty := false }
        else reserved.2
      (.ok (.write id), written.setWrite id
        { used := true, refs := 1, readable := flags.read, writable := flags.write
          append := flags.append
          offset := if flags.append then (written.contents content).size else 0
          content := content })

/-- The data that `process_file_open_write_raw` reads when no content has the path. -/
def oldData (path : Path) : Option Node → Option (List UInt8)
  | none => some []
  | some node => if (files.contentFind path).isNone then node.data else some []

/-- `process_file_open_write_raw`; a stream may hold the path. -/
def openWriteRaw (path : Path) (flags : OpenFlags) (busy : Bool)
    (node : Option Node) (room : Bool) : Except Errno Handle × OpenFiles :=
  if busy then (.error .busy, files)
  else if !(flags.read || flags.write) || (flags.trunc && !flags.write) then (.error .inval, files)
  else if node.isSome && flags.create && flags.excl then (.error .exist, files)
  else if node.any (·.directory) then (.error .isdir, files)
  else if node.isNone && !flags.create then (.error .noent, files)
  else
    match files.oldData path node with
    | none => (.error .io, files)
    | some data =>
      if !room then (.error .mfile, files)
      else
        match Fin.find? fun id => !(files.writeFiles id).used with
        | none => (.error .io, files)
        | some id =>
          files.openWriteAt id path flags data (flags.trunc || (node.isNone && flags.create))

/-- `process_file_open_flags` from the resolved path on; a stream may hold the path. -/
def openFlags (path : Path) (flags : OpenFlags) (busy : Bool)
    (node : Option Node) (room : Bool) : Except Errno Handle × OpenFiles :=
  if !(flags.read || flags.write) || flags.other || (flags.mode != 0 && !flags.permissions) ||
      (flags.directory && (flags.create || flags.write || flags.trunc)) then (.error .inval, files)
  else if busy then (.error .busy, files)
  else if flags.write || flags.create then files.openWriteRaw path flags busy node room
  else
    match node with
    | none => (.error .noent, files)
    | some found =>
      if flags.directory && !found.directory then (.error .notdir, files)
      else if found.directory then files.fileAlloc found [] room
      else
        match found.data with
        | none => (.error .io, files)
        | some data =>
          match files.fileAlloc found data room with
          | (.error _, files) => (.error .mfile, files)
          | (.ok handle, files) => (.ok handle, files)

/-! ## Reading and writing -/

/-- `process_file_read`. -/
def fileRead (handle : Handle) (length : Nat) :
    Except Errno (List UInt8) × OpenFiles :=
  match handle with
  | .read id =>
    let file := files.readFiles id
    if !file.used then (.error .fail, files)
    else if file.directory then (.error .isdir, files)
    else
      let bytes := (files.contents file.content).readAt file.offset length
      (.ok bytes, files.setRead id { file with offset := file.offset + bytes.length })
  | .write id =>
    let file := files.writeFiles id
    if !file.used || !file.readable then (.error .fail, files)
    else
      let bytes := (files.contents file.content).readAt file.offset length
      (.ok bytes, files.setWrite id { file with offset := file.offset + bytes.length })

/-- `process_file_pread`. -/
def filePread (handle : Handle) (length : Nat) (offset : Int) :
    Except Errno (List UInt8) :=
  if offset < 0 ∨ 2 ^ 63 ≤ length then .error .inval
  else
    match handle with
    | .read id =>
      let file := files.readFiles id
      if !file.used then .error .badf
      else if file.directory then .error .isdir
      else .ok ((files.contents file.content).readAt offset.toNat length)
    | .write id =>
      let file := files.writeFiles id
      if !file.used || !file.readable then .error .badf
      else .ok ((files.contents file.content).readAt offset.toNat length)

/-- The common part of `process_file_write` and `process_file_pwrite`. -/
def writeAt (id : ContentId) (position : Nat) (bytes : List UInt8)
    (limit : Nat) : Except Errno Nat × OpenFiles :=
  if limit ≤ position then (.error .fbig, files)
  else
    let bytes := bytes.take (limit - position)
    if writeBufferMax < position ∨ writeBufferMax - position < bytes.length then
      (.error .fbig, files)
    else
      match files.ensureWriteCapacity id (position + bytes.length) with
      | (false, files) => (.error .nomem, files)
      | (true, files) =>
        (.ok bytes.length, files.setContent id ((files.contents id).patched position bytes))

/-- `process_file_write`; `limit` is `fsize_limit.current` of the process. -/
def fileWrite (handle : Handle) (bytes : List UInt8) (limit : Nat) :
    Except Errno Nat × OpenFiles :=
  match handle with
  | .read _ => (.error .fail, files)
  | .write id =>
    let file := files.writeFiles id
    if !file.used || !file.writable then (.error .fail, files)
    else if bytes = [] then (.ok 0, files)
    else
      let position := if file.append then (files.contents file.content).size else file.offset
      match files.writeAt file.content position bytes limit with
      | (.error errno, files) => (.error errno, files)
      | (.ok count, files) =>
        (.ok count, files.setWrite id { files.writeFiles id with offset := position + count })

/-- `process_file_pwrite`. -/
def filePwrite (handle : Handle) (bytes : List UInt8) (offset : Int)
    (limit : Nat) : Except Errno Nat × OpenFiles :=
  if offset < 0 ∨ 2 ^ 63 ≤ bytes.length then (.error .inval, files)
  else
    match handle with
    | .read _ => (.error .badf, files)
    | .write id =>
      let file := files.writeFiles id
      if !file.used || !file.writable then (.error .badf, files)
      else if bytes = [] then (.ok 0, files)
      else files.writeAt file.content offset.toNat bytes limit

/-- `process_file_truncate`. -/
def fileTruncate (handle : Handle) (length limit : Nat) :
    Except Errno Unit × OpenFiles :=
  match handle with
  | .read _ => (.error .badf, files)
  | .write id =>
    let file := files.writeFiles id
    if !file.used || !file.writable then (.error .badf, files)
    else if (files.contents file.content).size < length ∧ limit < length then (.error .fbig, files)
    else if writeBufferMax < length then (.error .fbig, files)
    else
      match files.ensureWriteCapacity file.content length with
      | (false, files) => (.error .nomem, files)
      | (true, files) =>
        (.ok (), files.setContent file.content
          ((files.contents file.content).truncated length))

/-- `process_file_seek`. -/
def fileSeek (handle : Handle) (offset : Int) (whence : Nat) :
    Except Errno Nat × OpenFiles :=
  let current : Option (Nat × Nat) :=
    match handle with
    | .read id =>
      let file := files.readFiles id
      if file.used then some (file.offset, (files.contents file.content).size) else none
    | .write id =>
      let file := files.writeFiles id
      if file.used then some (file.offset, (files.contents file.content).size) else none
  match current with
  | none => (.error .badf, files)
  | some (position, size) =>
    let base : Option Int :=
      if whence = 0 then some 0
      else if whence = 1 then some (Int.bmod position (2 ^ 64))
      else if whence = 2 then some (Int.bmod size (2 ^ 64))
      else none
    match base with
    | none => (.error .inval, files)
    | some base =>
      if 0 < offset ∧ 2 ^ 63 - 1 - offset < base ∨ offset < 0 ∧ base < -2 ^ 63 - offset then
        (.error .overflow, files)
      else if base + offset < 0 then (.error .inval, files)
      else
        let target := (base + offset).toNat
        match handle with
        | .read id => (.ok target, files.setRead id { files.readFiles id with offset := target })
        | .write id =>
          (.ok target, files.setWrite id { files.writeFiles id with offset := target })

/-- `process_file_flush` on a file. -/
def fileFlush (handle : Handle) : Bool × OpenFiles :=
  match files.contentOf handle with
  | none => (false, files)
  | some id => files.contentFlush id

/-- `process_file_sync_all`. -/
@[irreducible] def syncAll : OpenFiles :=
  (List.finRange 192).foldl (fun files id =>
    if (files.contents id).refs ≠ 0 ∧ (files.contents id).dirty then (files.contentFlush id).2
    else files) files

/-! ## Names -/

def orphan : Option ContentId → OpenFiles
  | none => files
  | some id => files.setContent id { files.contents id with unlinked := true, dirty := false }

/-- A snapshot becomes a buffer before its name goes. -/
def promote : Option ContentId → Bool × OpenFiles
  | none => (true, files)
  | some id =>
    if (files.contents id).owned then (true, files)
    else files.ensureWriteCapacity id (files.contents id).size

/-- `process_unlink_file` on a file, from `content_find` on; whether the name is gone after
`exfat_delete_file`. -/
def unlinkContent (path : Path) (gone : Bool) : Except Errno Unit × OpenFiles :=
  let content := files.contentFind path
  match files.promote content with
  | (false, files) => (.error .nomem, files)
  | (true, files) =>
    (if files.answer.ok then .ok () else .error .io,
      if gone then files.ask.orphan content else files.ask)

/-- `process_unlink_file`: a stream may hold the path; what the path names. -/
def unlinkFile (path : Path) (busy : Bool) (node : Option Node) (gone : Bool) :
    Except Errno Unit × OpenFiles :=
  if busy then (.error .busy, files)
  else
    match node with
    | none => (.error .noent, files)
    | some found =>
      if found.directory then (.error .isdir, files) else files.unlinkContent path gone

end OpenFiles

/-- What `process_rename_file` finds about its two paths. -/
structure Renaming where
  busy : Bool
  source : Option Node
  target : Option Node
  sameMount : Bool
  /-- `path_under_prefix` of the new path below the old one. -/
  nested : Bool
  /-- `vfs_namespace_system_protects` of either path. -/
  protects : Bool
  /-- `process_has_open_vfs_prefix` of either path. -/
  openBelow : Bool
  published : Bool

namespace OpenFiles

/-- `process_rename_file` from a published or failed `exfat_rename` or `exfat_replace_file` on. -/
def publishRename (newPath : Path) (source target : Option ContentId)
    (published : Bool) : OpenFiles :=
  if published then
    let files := files.orphan target
    match source, copyProcessPath newPath with
    | some id, some copied => files.setContent id { files.contents id with path := copied }
    | _, _ => files
  else files

def flushFound : Option ContentId → Bool × OpenFiles
  | none => (true, files)
  | some id => files.contentFlush id

/-- The file branch of `process_rename_file`. -/
def renameContents (oldPath newPath : Path) (published : Bool) :
    Except Errno Unit × OpenFiles :=
  let source := files.contentFind oldPath
  let target := files.contentFind newPath
  match files.promote source with
  | (false, files) => (.error .nomem, files)
  | (true, files) =>
    match files.promote target with
    | (false, files) => (.error .nomem, files)
    | (true, files) =>
      let flushed := files.flushFound source
      if !flushed.1 then (.error .io, flushed.2)
      else
        (if flushed.2.answer.ok then .ok () else .error .io,
          flushed.2.ask.publishRename newPath source target published)

/-- `process_rename_file`. -/
def renameFile (oldPath newPath : Path) (world : Renaming) :
    Except Errno Unit × OpenFiles :=
  if world.busy then (.error .busy, files)
  else
    match world.source with
    | none => (.error .noent, files)
    | some source =>
      if oldPath = newPath then (.ok (), files)
      else if !world.sameMount then (.error .xdev, files)
      else if source.directory then
        if world.target.any (!·.directory) then (.error .notdir, files)
        else if world.nested then (.error .inval, files)
        else if world.protects || world.openBelow then (.error .busy, files)
        else if world.target.isSome then (.error .notsup, files)
        else
          (if files.answer.ok then .ok () else .error .io, files.ask)
      else if world.target.any (·.directory) then (.error .isdir, files)
      else if world.protects then (.error .busy, files)
      else files.renameContents oldPath newPath world.published

end OpenFiles

end SrvrOS.Files
