import FrameworksAv.Mtp.DataPacket
import FrameworksAv.Base.Run

/-
  The requests of an MTP server that send and edit objects.

  A request brings the outcomes of the calls that the server makes for it: of the database, the file
  system and the driver. The calls that the server makes of the database are recorded in their
  order.

  Main declarations:
    * `Call`, `Transfer`, `ObjectEdit`, `Server`
    * `Server.doSendObjectInfo`, `Server.doSendObject`
    * `Server.doBeginEditObject`, `Server.doEndEditObject`
    * `Server.handleRequest`, `step`
-/

--
-- Codes
--

namespace FrameworksAv

namespace MtpServer

abbrev MtpObjectHandle := BitVec 32
abbrev MtpStorageID := BitVec 32
abbrev MtpObjectFormat := BitVec 16
abbrev MtpResponseCode := BitVec 16

def kInvalidObjectHandle : MtpObjectHandle := 0xFFFFFFFF
def MTP_PARENT_ROOT : MtpObjectHandle := 0xFFFFFFFF
def MTP_FORMAT_ASSOCIATION : MtpObjectFormat := 0x3001
def MTP_CONTAINER_TYPE_COMMAND : BitVec 16 := 1

def MTP_RESPONSE_OK : MtpResponseCode := 0x2001
def MTP_RESPONSE_GENERAL_ERROR : MtpResponseCode := 0x2002
def MTP_RESPONSE_SESSION_NOT_OPEN : MtpResponseCode := 0x2003
def MTP_RESPONSE_INVALID_STORAGE_ID : MtpResponseCode :=
  0x2008
def MTP_RESPONSE_INVALID_OBJECT_HANDLE : MtpResponseCode :=
  0x2009
def MTP_RESPONSE_STORAGE_FULL : MtpResponseCode := 0x200C
def MTP_RESPONSE_NO_VALID_OBJECT_INFO : MtpResponseCode :=
  0x2015
def MTP_RESPONSE_INVALID_PARENT_OBJECT : MtpResponseCode :=
  0x201A
def MTP_RESPONSE_INVALID_PARAMETER : MtpResponseCode := 0x201D
def MTP_RESPONSE_SESSION_ALREADY_OPEN : MtpResponseCode :=
  0x201E
def MTP_RESPONSE_TRANSACTION_CANCELLED : MtpResponseCode :=
  0x201F
def MTP_RESPONSE_OBJECT_TOO_LARGE : MtpResponseCode := 0xA809

def EEXIST : Int := 17

--
-- Files
--

/-
  Write bytes into a file from an offset on. A gap behind the old end is filled with zeros; writing
  nothing changes nothing.
-/
def writeAt (content : List Byte) (offset : Nat) (data : List Byte) : List Byte :=
  if data = [] then content
  else content.takeD offset 0 ++ data ++ content.drop (offset + data.length)

/- The effect of `ftruncate`. -/
def truncateTo (content : List Byte) (size : Nat) : List Byte :=
  content.takeD size 0

/-
  What happens while an object is received. `packet` is the data behind the header of the first
  packet, `none` when no whole header could be read; `written` is what the write of that data
  returns, `none` when it is negative; `received` is what the driver writes into the file from the
  place it was given on, `completed` whether it reports success, and `cancelled` whether `errno` is
  `ECANCELED` in the end.
-/
structure Transfer where
  packet : Option (List Byte)
  written : Option Nat
  received : List Byte
  completed : Bool
  cancelled : Bool

namespace Transfer

/-
  Write the data of the first packet at `start`, and let the driver write the `rest` behind it when
  there is one: whether it went well, and the content of the file then.
-/
def receive (transfer : Transfer) (initialData : List Byte) (start : Nat) (rest : Bool)
    (content : List Byte) : Bool × List Byte :=
  match if initialData = [] then some 0 else transfer.written with
  | none => (false, content)
  | some count =>
    let content := writeAt content start (initialData.take count)
    if rest then
      (transfer.completed, writeAt content (start + initialData.length) transfer.received)
    else (true, content)

/- Was all data of the first packet written? -/
def Whole (transfer : Transfer) (initialData : List Byte) : Prop :=
  initialData = [] ∨ transfer.written = some initialData.length

instance (transfer : Transfer) (initialData : List Byte) : Decidable (transfer.Whole initialData) :=
  inferInstanceAs (Decidable (_ ∨ _))

end Transfer

--
-- The state of a server
--

/-
  The calls that are made of the database. `beginSendObject` comes with the handle that it returns;
  whether the data or the directory of the object has been created completely by then is recorded
  with `endSendObject`.
-/
inductive Call where
  | beginSendObject (path : List Byte) (format : MtpObjectFormat) (parent : MtpObjectHandle)
      (storage : MtpStorageID) (size : BitVec 64) (modified : Int) (handle : MtpObjectHandle)
  | endSendObject (path : List Byte) (handle : MtpObjectHandle) (format : MtpObjectFormat)
      (succeeded created : Bool)
  | sessionStarted
  | sessionEnded
deriving DecidableEq

structure MtpStorage where
  mStorageID : MtpStorageID
  mFilePath : List Byte
  mMaxFileSize : BitVec 64

structure ObjectEdit where
  mHandle : MtpObjectHandle
  mPath : List Byte
  mSize : BitVec 64
  mFormat : MtpObjectFormat
deriving DecidableEq

structure Response where
  code : MtpResponseCode
  p1 : BitVec 32
  p2 : BitVec 32
  p3 : BitVec 32
deriving DecidableEq

/- The first edit of a handle gets another size. -/
def resize (handle : MtpObjectHandle) (size : BitVec 64) : List ObjectEdit → List ObjectEdit
| [] => []
| edit :: edits =>
  if edit.mHandle = handle then { edit with mSize := size } :: edits
  else edit :: resize handle size edits

/- A server on a 64-bit system.  `files` is what the file system holds under each path. -/
structure Server where
  mSessionID : BitVec 32
  mSessionOpen : Bool
  mStorages : List MtpStorage
  mSendObjectHandle : MtpObjectHandle
  mSendObjectFormat : MtpObjectFormat
  mSendObjectFilePath : List Byte
  mSendObjectFileSize : BitVec 64
  mObjectEditList : List ObjectEdit
  mResponse : Response
  files : List Byte → List Byte
  calls : List Call

/- The state after the constructor. -/
def start (files : List Byte → List Byte) : Server where
  mSessionID := 0
  mSessionOpen := false
  mStorages := []
  mSendObjectHandle := kInvalidObjectHandle
  mSendObjectFormat := 0
  mSendObjectFilePath := []
  mSendObjectFileSize := 0
  mObjectEditList := []
  mResponse := ⟨0, 0, 0, 0⟩
  files := files
  calls := []

namespace Server

variable (s : Server)

def hasStorage : Bool :=
  !s.mStorages.isEmpty

/-
  The outer `none` is the fatal access to the first of no storages, the inner one the null pointer.
-/
def getStorage (id : MtpStorageID) : Option (Option MtpStorage) :=
  if id = 0 then s.mStorages.head?.map some
  else
    some (s.mStorages.find? (fun storage =>
      storage.mStorageID = id))

def getEditObject (handle : MtpObjectHandle) : Option ObjectEdit :=
  s.mObjectEditList.find? (fun edit => edit.mHandle = handle)

def call (c : Call) : Server :=
  { s with calls := s.calls ++ [c] }

/- A file gets another content. -/
def setFile (path content : List Byte) : Server :=
  { s with files := Function.update s.files path content }

/- The edit that is found for a handle gets another size. -/
def setSize (handle : MtpObjectHandle) (size : BitVec 64) : Server :=
  { s with
    mObjectEditList := resize handle size s.mObjectEditList }

end Server

--
-- Requests
--

/-
  What SendObjectInfo meets: the path and the format of the parent as the database knows them, the
  free space of the storage, the time that is parsed from the date, the handle that the database
  returns and what `mkdir` returns.
-/
structure InfoOutcome where
  parentPath : Except MtpResponseCode (List Byte × MtpObjectFormat)
  freeSpace : BitVec 64
  modified : Option Int
  handle : MtpObjectHandle
  mkdir : Int

/- What the database knows of the object of a handle. -/
structure ObjectFile where
  path : List Byte
  fileLength : BitVec 64
  format : MtpObjectFormat

/-
  The operations, with what they meet. An `other` operation leaves what this model has of the server
  as it is.
-/
inductive Operation where
  | openSession
  | closeSession
  | sendObjectInfo (data : Mtp.MtpDataPacket) (outcome : InfoOutcome)
  | sendObject (opened : Bool) (transfer : Transfer)
  | sendPartialObject (transfer : Transfer)
  | truncateObject (truncated : Bool)
  | beginEditObject (object : Except MtpResponseCode ObjectFile) (opened : Bool)
  | endEditObject
  | other (response : MtpResponseCode)

def Operation.isSendObject : Operation → Bool
| .sendObject _ _ => true
| _ => false

structure Request where
  containertype : BitVec 16
  parameters : List (BitVec 32)
  operation : Operation

def Request.getParameter (r : Request) (index : Nat) : BitVec 32 :=
  r.parameters.getD (index - 1) 0

/- A 64-bit offset comes as its low and its high word. -/
def Request.getOffset (r : Request) : BitVec 64 :=
  (r.getParameter 2).setWidth 64 ||| ((r.getParameter 3).setWidth 64 <<< 32)

--
-- Sessions
--

namespace Server

variable (s : Server)

def doOpenSession (r : Request) : MtpResponseCode × Server :=
  if s.mSessionOpen then
    (MTP_RESPONSE_SESSION_ALREADY_OPEN,
      { s with
        mResponse := { s.mResponse with p1 := s.mSessionID } })
  else if r.parameters.length < 1 then (MTP_RESPONSE_INVALID_PARAMETER, s)
  else
    (MTP_RESPONSE_OK,
      { s with
        mSessionID := r.getParameter 1
        mSessionOpen := true }.call .sessionStarted)

def doCloseSession : MtpResponseCode × Server :=
  if s.mSessionOpen then
    (MTP_RESPONSE_OK,
      { s with
        mSessionID := 0
        mSessionOpen := false }.call .sessionEnded)
  else (MTP_RESPONSE_SESSION_NOT_OPEN, s)

end Server

--
-- Sending an object
--

open Mtp

/- The dataset up to the size of the object. -/
def readFormatAndSize : Get (MtpObjectFormat × BitVec 32) := do
  let _ ← getUInt32
  let format ← MtpDataPacket.getUInt16
  let _ ← MtpDataPacket.getUInt16
  let size ← getUInt32
  pure (format, size)

/- The dataset behind the size: the name of the file. -/
def readName : Get (List Byte) := do
  let _ ← MtpDataPacket.getUInt16
  let _ ← getUInt32
  let _ ← getUInt32
  let _ ← getUInt32
  let _ ← getUInt32
  let _ ← getUInt32
  let _ ← getUInt32
  let _ ← getUInt32
  let _ ← MtpDataPacket.getUInt16
  let _ ← getUInt32
  let _ ← getUInt32
  let name ← getString
  let _ ← getString
  let _ ← getString
  pure name

/- What is to be sent, as far as the database is told. -/
structure NewObject where
  path : List Byte
  format : MtpObjectFormat
  parent : MtpObjectHandle
  storage : MtpStorageID
  modified : Int

/- A name in a directory, behind exactly one slash. -/
def joinPath (path name : List Byte) : Option (List Byte) :=
  match path.getLast? with
  | none => none
  | some last =>
    if last = 0x2F then some (path ++ name)
    else some (path ++ [0x2F] ++ name)

namespace Server

variable (s : Server)

/- The directory of a new object. -/
def parentPath (storage : MtpStorage) (parent : MtpObjectHandle) (outcome : InfoOutcome) :
    Except MtpResponseCode (List Byte × MtpObjectHandle) :=
  if parent = MTP_PARENT_ROOT then .ok (storage.mFilePath, 0)
  else
    match outcome.parentPath with
    | .error result => .error result
    | .ok (path, format) =>
      if format = MTP_FORMAT_ASSOCIATION then .ok (path, parent)
      else .error MTP_RESPONSE_INVALID_PARENT_OBJECT

/- Does an object of the size fit? -/
def checkSpace (storage : MtpStorage) (outcome : InfoOutcome) : Option MtpResponseCode :=
  if outcome.freeSpace < s.mSendObjectFileSize then some MTP_RESPONSE_STORAGE_FULL
  else if storage.mMaxFileSize ≠ 0 ∧
      (storage.mMaxFileSize < s.mSendObjectFileSize ∨ s.mSendObjectFileSize = 0xFFFFFFFF) then
    some MTP_RESPONSE_OBJECT_TOO_LARGE
  else none

/-
  The part of `doSendObjectInfo` in front of the call of `beginSendObject`; the size is kept as soon
  as it is read.
-/
def newObject (r : Request) (data : MtpDataPacket) (outcome : InfoOutcome) :
    Option (Except MtpResponseCode NewObject × Server) :=
  if r.parameters.length < 2 then some (.error MTP_RESPONSE_INVALID_PARAMETER, s)
  else
    match s.getStorage (r.getParameter 1) with
    | none => none
    | some none => some (.error MTP_RESPONSE_INVALID_STORAGE_ID, s)
    | some (some storage) =>
    match parentPath storage (r.getParameter 2) outcome with
    | .error result => some (.error result, s)
    | .ok (path, parent) =>
    match readFormatAndSize data with
    | .error _ => none
    | .ok none => some (.error MTP_RESPONSE_INVALID_PARAMETER, s)
    | .ok (some ((format, size), data)) =>
    let s := { s with mSendObjectFileSize := size.setWidth 64 }
    match readName data with
    | .error _ => none
    | .ok none => some (.error MTP_RESPONSE_INVALID_PARAMETER, s)
    | .ok (some (name, _)) =>
    match joinPath path name with
    | none => none
    | some path =>
    match s.checkSpace storage outcome with
    | some result => some (.error result, s)
    | none =>
      some
        (.ok
          { path := path
            format := format
            parent := parent
            storage := r.getParameter 1
            modified := outcome.modified.getD 0 }, s)

/- The call of `beginSendObject` and what follows it. -/
def beginObject (object : NewObject) (outcome : InfoOutcome) : MtpResponseCode × Server :=
  let begun :=
    s.call (.beginSendObject object.path object.format
      object.parent object.storage s.mSendObjectFileSize object.modified outcome.handle)
  let answered := { begun.mResponse with
    p1 := object.storage
    p2 := object.parent
    p3 := outcome.handle }
  if outcome.handle = kInvalidObjectHandle then (MTP_RESPONSE_GENERAL_ERROR, begun)
  else if object.format = MTP_FORMAT_ASSOCIATION then
    if outcome.mkdir ≠ 0 ∧ outcome.mkdir ≠ -EEXIST then (MTP_RESPONSE_GENERAL_ERROR, begun)
    else
      -- `MTP_RESPONSE_OK` is passed for the flag
      (MTP_RESPONSE_OK,
        { begun.call (.endSendObject object.path outcome.handle
            MTP_FORMAT_ASSOCIATION true true) with
          mResponse := answered })
  else
    (MTP_RESPONSE_OK,
      { begun with
        mSendObjectFilePath := object.path
        mSendObjectHandle := outcome.handle
        mSendObjectFormat := object.format
        mResponse := answered })

def doSendObjectInfo (r : Request) (data : MtpDataPacket) (outcome : InfoOutcome) :
    Option (MtpResponseCode × Server) :=
  match s.newObject r data outcome with
  | none => none
  | some (.error result, s) => some (result, s)
  | some (.ok object, s) => some (s.beginObject object outcome)

/- The end of `doSendObject`, behind the label. -/
def endObject (result : MtpResponseCode) (created : Bool) : MtpResponseCode × Server :=
  (result,
    { s.call (.endSendObject s.mSendObjectFilePath s.mSendObjectHandle s.mSendObjectFormat
        (result = MTP_RESPONSE_OK) created) with
      mSendObjectHandle := kInvalidObjectHandle
      mSendObjectFormat := 0 })

/-
  The file is there. The difference of the sizes is one of 64 bits; the driver is asked for that
  many bytes, or for all up to a short packet when the size is `0xFFFFFFFF`.
-/
def receiveObject (transfer : Transfer) (initialData : List Byte) : MtpResponseCode × Server :=
  let path := s.mSendObjectFilePath
  let rest := s.mSendObjectFileSize - BitVec.ofNat 64 initialData.length
  match transfer.receive initialData 0 (rest ≠ 0) [] with
  | (true, content) =>
    (s.setFile path content).endObject MTP_RESPONSE_OK (transfer.Whole initialData)
  | (false, _) =>
    -- the file is unlinked
    (s.setFile path []).endObject
      (if transfer.cancelled then MTP_RESPONSE_TRANSACTION_CANCELLED
      else MTP_RESPONSE_GENERAL_ERROR) false

def doSendObject (opened : Bool) (transfer : Transfer) : MtpResponseCode × Server :=
  if s.hasStorage = false then (MTP_RESPONSE_GENERAL_ERROR, s)
  else if s.mSendObjectHandle = kInvalidObjectHandle then
    s.endObject MTP_RESPONSE_NO_VALID_OBJECT_INFO false
  else
    match transfer.packet with
    | none => s.endObject MTP_RESPONSE_GENERAL_ERROR false
    | some initialData =>
      if opened then s.receiveObject transfer initialData
      else s.endObject MTP_RESPONSE_GENERAL_ERROR false

end Server

end MtpServer

--
-- Editing an object
--

namespace MtpServer

namespace Server

variable (s : Server)

/- The edit is open; the object is written from an offset on. -/
def receivePartial (edit : ObjectEdit) (offset : BitVec 64) (length : BitVec 32)
    (transfer : Transfer) (initialData : List Byte) : MtpResponseCode × Server :=
  let start := offset.toNat
  let offset := offset + BitVec.ofNat 64 initialData.length
  let length := length - BitVec.ofNat 32 initialData.length
  match transfer.receive initialData start (length ≠ 0) (s.files edit.mPath) with
  | (false, content) =>
    (if transfer.cancelled then MTP_RESPONSE_TRANSACTION_CANCELLED else MTP_RESPONSE_GENERAL_ERROR,
      { s.setFile edit.mPath content with
        mResponse := { s.mResponse with p1 := 0 } })
  | (true, content) =>
    let written :=
      { s.setFile edit.mPath content with
        mResponse := { s.mResponse with p1 := length } }
    let stop := offset + length.setWidth 64
    if edit.mSize < stop then (MTP_RESPONSE_OK, written.setSize edit.mHandle stop)
    else (MTP_RESPONSE_OK, written)

def doSendPartialObject (r : Request) (transfer : Transfer) : MtpResponseCode × Server :=
  if s.hasStorage = false then (MTP_RESPONSE_INVALID_OBJECT_HANDLE, s)
  else if r.parameters.length < 4 then (MTP_RESPONSE_INVALID_PARAMETER, s)
  else
    match s.getEditObject (r.getParameter 1) with
    | none => (MTP_RESPONSE_GENERAL_ERROR, s)
    | some edit =>
      if edit.mSize < r.getOffset then (MTP_RESPONSE_GENERAL_ERROR, s)
      else
        match transfer.packet with
        | none => (MTP_RESPONSE_GENERAL_ERROR, s)
        | some initialData =>
          s.receivePartial edit r.getOffset (r.getParameter 4) transfer initialData

def doTruncateObject (r : Request) (truncated : Bool) : MtpResponseCode × Server :=
  if r.parameters.length < 3 then (MTP_RESPONSE_INVALID_PARAMETER, s)
  else
    match s.getEditObject (r.getParameter 1) with
    | none => (MTP_RESPONSE_GENERAL_ERROR, s)
    | some edit =>
      if truncated then
        (MTP_RESPONSE_OK,
          (s.setFile edit.mPath (truncateTo (s.files edit.mPath) r.getOffset.toNat)).setSize
            edit.mHandle r.getOffset)
      else (MTP_RESPONSE_GENERAL_ERROR, s)

def addEditObject (edit : ObjectEdit) : Server :=
  { s with mObjectEditList := s.mObjectEditList ++ [edit] }

def doBeginEditObject (r : Request) (object : Except MtpResponseCode ObjectFile) (opened : Bool) :
    MtpResponseCode × Server :=
  if r.parameters.length < 1 then (MTP_RESPONSE_INVALID_PARAMETER, s)
  else if (s.getEditObject (r.getParameter 1)).isSome then (MTP_RESPONSE_GENERAL_ERROR, s)
  else
    match object with
    | .error result => (result, s)
    | .ok file =>
      if opened then
        (MTP_RESPONSE_OK,
          s.addEditObject
            { mHandle := r.getParameter 1
              mPath := file.path
              mSize := file.fileLength
              mFormat := file.format })
      else (MTP_RESPONSE_GENERAL_ERROR, s)

/- A commit creates nothing: the object was there. -/
def commitEdit (edit : ObjectEdit) : Server :=
  s.call (.endSendObject edit.mPath edit.mHandle edit.mFormat true false)

/- The first edit of the handle is taken from the list. -/
def removeEditObject (handle : MtpObjectHandle) : Server :=
  { s with
    mObjectEditList :=
      s.mObjectEditList.eraseP (fun edit =>
        edit.mHandle = handle) }

def doEndEditObject (r : Request) : MtpResponseCode × Server :=
  if r.parameters.length < 1 then (MTP_RESPONSE_INVALID_PARAMETER, s)
  else
    match s.getEditObject (r.getParameter 1) with
    | none => (MTP_RESPONSE_GENERAL_ERROR, s)
    | some edit => (MTP_RESPONSE_OK, (s.commitEdit edit).removeEditObject (r.getParameter 1))

--
-- Handling a request
--

/- The switch over the operations. -/
def perform (r : Request) : Option (MtpResponseCode × Server) :=
  match r.operation with
  | .openSession => some (s.doOpenSession r)
  | .closeSession => some s.doCloseSession
  | .sendObjectInfo data outcome => s.doSendObjectInfo r data outcome
  | .sendObject opened transfer => some (s.doSendObject opened transfer)
  | .sendPartialObject transfer => some (s.doSendPartialObject r transfer)
  | .truncateObject truncated => some (s.doTruncateObject r truncated)
  | .beginEditObject object opened => some (s.doBeginEditObject r object opened)
  | .endEditObject => some (s.doEndEditObject r)
  | .other response => some (response, s)

/- The response is reset, and an object that was announced is forgotten when it is not sent now. -/
def expectSendObject (operation : Operation) : Server :=
  { s with
    mResponse := ⟨0, 0, 0, 0⟩
    mSendObjectHandle := if operation.isSendObject then s.mSendObjectHandle
      else kInvalidObjectHandle }

/- The flag tells whether a response is sent. -/
def handleRequest (r : Request) : Option (Bool × Server) :=
  let s := s.expectSendObject r.operation
  if r.containertype ≠ MTP_CONTAINER_TYPE_COMMAND then some (false, s)
  else
    match s.perform r with
    | none => none
    | some (response, s) =>
      if response = MTP_RESPONSE_TRANSACTION_CANCELLED then some (false, s)
      else
        some (true,
          { s with
            mResponse := { s.mResponse with code := response } })

end Server

/- Requests, and storages that come and go between them. -/
inductive Action where
  | request (r : Request)
  | addStorage (storage : MtpStorage)
  | removeStorage (id : MtpStorageID)

def step (s : Server) : Action → Option Server
| .request r => (s.handleRequest r).map Prod.snd
| .addStorage storage => some { s with mStorages := s.mStorages ++ [storage] }
| .removeStorage id =>
  some
    { s with
      mStorages :=
        s.mStorages.eraseP (fun storage =>
          storage.mStorageID = id) }

end MtpServer

end FrameworksAv
