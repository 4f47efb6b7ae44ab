import Mathlib.Data.List.Basic

/-! The part of C and jansson the plugin relies on: how a call can fail, JSON values, and the
variadic object formats of `json_pack` and `json_unpack` with their argument lists. -/
namespace FluxPmix

/-- `error` is a function's documented failure return (NULL or -1). After `undefined` the C
standard promises nothing: an access outside an object, a NULL dereference, a missing argument. -/
inductive Fault where
  | error
  | undefined
  deriving DecidableEq, Repr

inductive Errno where
  | EINVAL
  | ENOMEM
  | EINPROGRESS
  | EPROTO
  deriving DecidableEq, Repr

/-- `INT_MAX`, the last value an `int` loop counter may hold. -/
def intMax : Nat := 0x7fffffff

def ptrdiffMax : UInt64 := 0x7fffffffffffffff

/-- `malloc` fails above `PTRDIFF_MAX` and otherwise succeeds, also for size 0. -/
def malloc (size : UInt64) : Except Fault Unit :=
  if ptrdiffMax < size then .error .error else .ok ()

/-- `json_int_t` is a signed 64-bit integer. A real is the bit pattern of a double, a string
its bytes. -/
inductive Json where
  | null
  | bool (value : Bool)
  | integer (value : Int64)
  | real (bits : UInt64)
  | string (bytes : List UInt8)
  | array (items : List Json)
  | object (members : List (String × Json))

namespace Json

def isString : Json → Bool
  | .string _ => true
  | _ => false

def isFalse : Json → Bool
  | .bool false => true
  | _ => false

def isObject : Json → Bool
  | .object _ => true
  | _ => false

/-- `json_integer_value`, which is 0 for every other kind. -/
def integerValue : Json → Int64
  | .integer n => n
  | _ => 0

/-- `json_real_value`, which is 0.0 for every other kind. -/
def realValue : Json → UInt64
  | .real bits => bits
  | _ => 0

/-- `json_string_value`, which is NULL for every other kind. -/
def stringValue : Json → Option (List UInt8)
  | .string bytes => some bytes
  | _ => none

/-- `json_object_get`, which is NULL for every other kind. -/
def objectGet (key : String) : Json → Option Json
  | .object members => members.lookup key
  | _ => none

/-- The elements `json_array_foreach` visits: none when the value is not an array. -/
def arrayElements : Json → List Json
  | .array items => items
  | _ => []

end Json

/-- UTF-8 with `owed` continuation bytes outstanding, the next one within `low` and `high`. -/
def utf8From (owed : Nat) (low high : UInt8) : List UInt8 → Bool
  | [] => owed == 0
  | b :: rest =>
    match owed with
    | owed + 1 => low ≤ b && b ≤ high && utf8From owed 0x80 0xbf rest
    | 0 =>
      if b < 0x80 then utf8From 0 0x80 0xbf rest
      else if 0xc2 ≤ b && b ≤ 0xdf then utf8From 1 0x80 0xbf rest
      else if b == 0xe0 then utf8From 2 0xa0 0xbf rest
      else if b == 0xed then utf8From 2 0x80 0x9f rest
      else if 0xe1 ≤ b && b ≤ 0xef then utf8From 2 0x80 0xbf rest
      else if b == 0xf0 then utf8From 3 0x90 0xbf rest
      else if 0xf1 ≤ b && b ≤ 0xf3 then utf8From 3 0x80 0xbf rest
      else if b == 0xf4 then utf8From 3 0x80 0x8f rest
      else false

/-- jansson's string check: well formed UTF-8, without overlong forms, surrogates or code
points above U+10FFFF. -/
def utf8Check (bytes : List UInt8) : Bool := utf8From 0 0x80 0xbf bytes

/-- `json_string`: NULL and ill-formed bytes give NULL. -/
def jsonString : Option (List UInt8) → Except Fault Json
  | none => .error .error
  | some bytes => if utf8Check bytes then .ok (.string bytes) else .error .error

/-- IEEE double bit patterns other than infinities and NaNs. -/
def isFinite (bits : UInt64) : Bool := (bits >>> 52) &&& 0x7ff != 0x7ff

/-- `json_real` refuses infinities and NaNs. -/
def jsonReal (bits : UInt64) : Except Fault Json :=
  if isFinite bits then .ok (.real bits) else .error .error

/-- One member of an object format given to `json_pack`. -/
inductive PackItem where
  | s (bytes : List UInt8)
  | i (value : Int32)
  | I (value : Int64)
  | O (value : Json)

def PackItem.pack : PackItem → Except Fault Json
  | .s bytes => jsonString (some bytes)
  | .i value => .ok (.integer value.toInt64)
  | .I value => .ok (.integer value)
  | .O value => .ok value

def packMembers : List (String × PackItem) → Except Fault (List (String × Json))
  | [] => .ok []
  | (key, item) :: rest => do
    let value ← item.pack
    let members ← packMembers rest
    return (key, value) :: members

/-- `json_pack` with an object format. -/
def jsonPack (items : List (String × PackItem)) : Except Fault Json := do
  let members ← packMembers items
  return .object members

/-- The value conversions of an object format given to `json_unpack`, one after each `s` key. -/
inductive Conv where
  | s
  | i
  | I
  | o

abbrev Conv.Value : Conv → Type
  | .s => List UInt8
  | .i => Int32
  | .I => Int64
  | .o => Json

/-- What an object format stores, in the order of its conversions. -/
abbrev Outputs : List Conv → Type
  | [] => Unit
  | conv :: rest => conv.Value × Outputs rest

/-- A variadic argument: a key, or the address of an output. -/
inductive UnpackArg where
  | key (name : String)
  | dest

def Conv.unpack : (conv : Conv) → Json → Except Fault conv.Value
  | .s, .string bytes => .ok bytes
  | .i, .integer n => .ok n.toInt32
  | .I, .integer n => .ok n
  | .o, value => .ok value
  | _, _ => .error .error

/-- Each key consumes one argument and each stored value another. Taking an output's address
for a key, or an argument that was not passed, is undefined. -/
def unpackMembers (root : Json) : (format : List Conv) → List UnpackArg → Except Fault (Outputs format)
  | [], _ => .ok ()
  | conv :: format, .key name :: args => do
    let some member := root.objectGet name | throw .error
    let value ← conv.unpack member
    match args with
    | .dest :: args => return (value, ← unpackMembers root format args)
    | _ => throw .undefined
  | _ :: _, _ => throw .undefined

/-- `json_unpack` with an object format. -/
def jsonUnpack (root : Json) (format : List Conv) (args : List UnpackArg) :
    Except Fault (Outputs format) :=
  if root.isObject then unpackMembers root format args else .error .error

/-- The argument list of a well formed call: every key followed by its output. -/
def keyed (keys : List String) : List UnpackArg := keys.flatMap (fun name => [.key name, .dest])

@[simp] theorem keyed_nil : keyed [] = [] := rfl

@[simp] theorem keyed_cons (name : String) (keys : List String) :
    keyed (name :: keys) = .key name :: .dest :: keyed keys := rfl

@[simp] theorem objectGet_cons_self (key : String) (value : Json) (members : List (String × Json)) :
    (Json.object ((key, value) :: members)).objectGet key = some value := by
  simp [Json.objectGet]

@[simp] theorem objectGet_cons_ne (different : key ≠ other) (value : Json) (members : List (String × Json)) :
    (Json.object ((other, value) :: members)).objectGet key =
      (Json.object members).objectGet key := by
  have unequal : (key == other) = false := by simpa using different
  simp [Json.objectGet, List.lookup_cons, unequal]

@[simp] theorem ok_bind (a : α) (f : α → Except Fault β) : (Except.ok a : Except Fault α) >>= f = f a := rfl

theorem bind_ok {x : Except Fault α} {f : α → Except Fault β} :
    x >>= f = .ok b ↔ ∃ a, x = .ok a ∧ f a = .ok b := by
  cases x with
  | ok a => simp [bind, Except.bind]
  | error fault => simp [bind, Except.bind]

theorem bind_error {x : Except Fault α} {f : α → Except Fault β} :
    x >>= f = .error fault ↔ x = .error fault ∨ ∃ a, x = .ok a ∧ f a = .error fault := by
  cases x with
  | ok a => simp [bind, Except.bind]
  | error other => simp [bind, Except.bind]

theorem pure_ok {a b : α} : (pure a : Except Fault α) = .ok b ↔ b = a := by
  simp only [pure, Except.pure, Except.ok.injEq]
  exact eq_comm

/-! ### Calls that fail at worst with NULL or -1 -/

theorem ok_defined (a : α) : (.ok a : Except Fault α) ≠ .error .undefined := nofun

theorem error_defined : (.error .error : Except Fault α) ≠ .error .undefined := nofun

theorem bind_defined {x : Except Fault α} {f : α → Except Fault β} (first : x ≠ .error .undefined)
    (rest : ∀ a, x = .ok a → f a ≠ .error .undefined) : x >>= f ≠ .error .undefined := by
  cases x with
  | ok a => exact rest a rfl
  | error fault => exact fun undefined => first (congrArg Except.error (Except.error.inj undefined))

/-- A call that is refused ends a chain without harm, so what follows matters once it is accepted. -/
theorem bind_undefined {x : Except Fault α} {f : α → Except Fault β}
    (undefined : x = .error .undefined ↔ U) (accepts : (∃ a, x = .ok a) ↔ A)
    (rest : ∀ a, x = .ok a → (f a = .error .undefined ↔ R)) :
    x >>= f = .error .undefined ↔ U ∨ A ∧ R := by
  rw [bind_error, undefined]
  apply or_congr_right
  constructor
  · rintro ⟨a, ended, failed⟩
    exact ⟨accepts.mp ⟨a, ended⟩, (rest a ended).mp failed⟩
  · rintro ⟨accepted, failed⟩
    obtain ⟨a, ended⟩ := accepts.mpr accepted
    exact ⟨a, ended, (rest a ended).mpr failed⟩

theorem bind_accepts {x : Except Fault α} {f : α → Except Fault β} (accepts : (∃ a, x = .ok a) ↔ A)
    (rest : ∀ a, x = .ok a → ((∃ b, f a = .ok b) ↔ R)) : (∃ b, x >>= f = .ok b) ↔ A ∧ R := by
  simp only [bind_ok]
  constructor
  · rintro ⟨b, a, ended, others⟩
    exact ⟨accepts.mp ⟨a, ended⟩, (rest a ended).mp ⟨b, others⟩⟩
  · rintro ⟨accepted, others⟩
    obtain ⟨a, ended⟩ := accepts.mpr accepted
    obtain ⟨b, others⟩ := (rest a ended).mpr others
    exact ⟨b, a, ended, others⟩

/-! ### Unpacking what a key is known to hold -/

@[simp] theorem jsonUnpack_object (members : List (String × Json)) (format : List Conv)
    (args : List UnpackArg) :
    jsonUnpack (.object members) format args = unpackMembers (.object members) format args := rfl

@[simp] theorem unpackMembers_nil (root : Json) (args : List UnpackArg) :
    unpackMembers root [] args = .ok () := rfl

@[simp] theorem unpackMembers_key (found : root.objectGet name = some member) (format : List Conv)
    (args : List UnpackArg) :
    unpackMembers root (conv :: format) (.key name :: .dest :: args) = (do
      let value ← conv.unpack member
      let rest ← unpackMembers root format args
      return (value, rest)) := by
  simp only [unpackMembers, found]

@[simp] theorem unpack_s (bytes : List UInt8) : Conv.s.unpack (.string bytes) = .ok bytes := rfl

@[simp] theorem unpack_i (n : Int64) : Conv.i.unpack (.integer n) = .ok n.toInt32 := rfl

@[simp] theorem unpack_o (value : Json) : Conv.o.unpack value = .ok value := rfl

/-! ### Unpacking any object -/

def Conv.admits : Conv → Json → Bool
  | .s, .string _ => true
  | .i, .integer _ => true
  | .I, .integer _ => true
  | .o, _ => true
  | _, _ => false

/-- The member that `has` found. -/
def Json.member (root : Json) (key : String) : Json := (root.objectGet key).getD .null

/-- An object with a member of the right kind under each key. -/
def Json.has (root : Json) (format : List Conv) (keys : List String) : Bool :=
  root.isObject && (format.zip keys).all (fun m => (root.objectGet m.2).any m.1.admits)

theorem Conv.unpack_admits (conv : Conv) (value : Json) :
    (∃ v, conv.unpack value = .ok v) ↔ conv.admits value = true := by
  cases conv <;> cases value <;> simp [Conv.unpack, Conv.admits]

theorem Conv.unpack_defined (conv : Conv) (value : Json) : conv.unpack value ≠ .error .undefined := by
  cases conv <;> cases value <;> simp [Conv.unpack]

theorem unpackMembers_absent (absent : root.objectGet name = none) (format : List Conv) (args : List UnpackArg) :
    unpackMembers root (conv :: format) (.key name :: args) = .error .error := by
  simp only [unpackMembers, absent]
  rfl

theorem unpackMembers_ok {outs : Outputs (conv :: format)} :
    unpackMembers root (conv :: format) (.key name :: .dest :: args) = .ok outs ↔
      ∃ member, root.objectGet name = some member ∧ conv.unpack member = .ok outs.1 ∧
        unpackMembers root format args = .ok outs.2 := by
  cases found : root.objectGet name with
  | none => simp [unpackMembers_absent found]
  | some member =>
    simp only [unpackMembers_key found, bind_ok, pure_ok, Option.some.injEq, exists_eq_left']
    constructor
    · rintro ⟨value, unpacked, rest, remaining, rfl⟩
      exact ⟨unpacked, remaining⟩
    · rintro ⟨unpacked, remaining⟩
      exact ⟨outs.1, unpacked, outs.2, remaining, rfl⟩

theorem unpackMembers_o {outs : Outputs (.o :: format)}
    (unpacked : unpackMembers root (.o :: format) (.key name :: .dest :: args) = .ok outs) :
    outs.1 = root.member name ∧ unpackMembers root format args = .ok outs.2 := by
  obtain ⟨member, found, converted, rest⟩ := unpackMembers_ok.mp unpacked
  refine ⟨?_, rest⟩
  rw [Json.member, found]
  exact (Except.ok.inj converted).symm

/-- What is no object has no members either. -/
theorem jsonUnpack_members (root : Json) (name : String) (format : List Conv) (args : List UnpackArg) :
    jsonUnpack root (conv :: format) (.key name :: args) = unpackMembers root (conv :: format) (.key name :: args) := by
  cases root with
  | object members => rfl
  | _ => exact (unpackMembers_absent rfl format args).symm

theorem unpackMembers_has (root : Json) {format : List Conv} {keys : List String}
    (paired : keys.length = format.length) : (∃ outs, unpackMembers root format (keyed keys) = .ok outs) ↔
      (format.zip keys).all (fun m => (root.objectGet m.2).any m.1.admits) = true := by
  induction format generalizing keys with
  | nil => exact iff_of_true ⟨(), rfl⟩ rfl
  | cons conv format ih =>
    cases keys with
    | nil => contradiction
    | cons name keys =>
      rw [List.zip_cons_cons, List.all_cons, Bool.and_eq_true, ← ih (Nat.succ.inj paired), keyed_cons]
      cases found : root.objectGet name with
      | none => simp [unpackMembers_absent found]
      | some member =>
        simp only [unpackMembers_key found, bind_ok, pure_ok, Option.any_some, ← Conv.unpack_admits]
        constructor
        · rintro ⟨_, value, unpacked, outs, remaining, rfl⟩
          exact ⟨⟨value, unpacked⟩, outs, remaining⟩
        · rintro ⟨⟨value, unpacked⟩, outs, remaining⟩
          exact ⟨_, value, unpacked, outs, remaining, rfl⟩

theorem unpackMembers_defined (root : Json) {format : List Conv} {keys : List String}
    (paired : keys.length = format.length) : unpackMembers root format (keyed keys) ≠ .error .undefined := by
  induction format generalizing keys with
  | nil => exact ok_defined ()
  | cons conv format ih =>
    cases keys with
    | nil => contradiction
    | cons name keys =>
      rw [keyed_cons]
      cases found : root.objectGet name with
      | none => simp [unpackMembers_absent found]
      | some member =>
        rw [unpackMembers_key found]
        apply bind_defined (conv.unpack_defined member)
        intro value _
        apply bind_defined (ih (Nat.succ.inj paired))
        intro outs _
        exact ok_defined _

/-- A call whose arguments alternate keys and outputs succeeds exactly on such an object. -/
theorem jsonUnpack_has (root : Json) {format : List Conv} {keys : List String}
    (paired : keys.length = format.length) :
    (∃ outs, jsonUnpack root format (keyed keys) = .ok outs) ↔ root.has format keys = true := by
  rw [Json.has, Bool.and_eq_true, ← unpackMembers_has root paired, jsonUnpack]
  cases root.isObject <;> simp

theorem jsonUnpack_defined (root : Json) {format : List Conv} {keys : List String}
    (paired : keys.length = format.length) : jsonUnpack root format (keyed keys) ≠ .error .undefined := by
  rw [jsonUnpack]
  split
  · exact unpackMembers_defined root paired
  · exact error_defined

/-! ### Packing -/

theorem jsonString_ok : jsonString value = .ok packed ↔
    ∃ bytes, value = some bytes ∧ utf8Check bytes = true ∧ packed = .string bytes := by
  cases value with
  | none => simp [jsonString]
  | some bytes =>
    cases valid : utf8Check bytes with
    | true =>
      simp only [jsonString, valid, if_true, Except.ok.injEq, Option.some.injEq, exists_eq_left',
        true_and]
      exact eq_comm
    | false => simp [jsonString, valid]

theorem jsonReal_ok : jsonReal bits = .ok o ↔ isFinite bits = true ∧ o = .real bits := by
  cases finite : isFinite bits with
  | true =>
    simp only [jsonReal, finite, if_true, Except.ok.injEq, true_and]
    exact eq_comm
  | false => simp [jsonReal, finite]

/-- The one way a member can be refused. -/
def PackItem.packable : PackItem → Bool
  | .s bytes => utf8Check bytes
  | _ => true

def PackItem.value : PackItem → Json
  | .s bytes => .string bytes
  | .i value => .integer value.toInt64
  | .I value => .integer value
  | .O value => value

theorem PackItem.pack_eq (item : PackItem) :
    item.pack = if item.packable then .ok item.value else .error .error := by
  cases item <;> rfl

theorem packMembers_eq (items : List (String × PackItem)) :
    packMembers items = if items.all (fun item => item.2.packable) then
      .ok (items.map (fun item => (item.1, item.2.value))) else .error .error := by
  induction items with
  | nil => rfl
  | cons item rest ih =>
    rw [packMembers, ih, PackItem.pack_eq]
    cases first : item.2.packable with
    | false => simp [first, bind, Except.bind]
    | true =>
      by_cases others : rest.all (fun item => item.2.packable) = true
      · simp only [if_true, others, List.all_cons, first, Bool.and_true, List.map_cons]
        rfl
      · simp [first, others, bind, Except.bind]

/-- `json_pack` fails exactly on a member with ill-formed UTF-8, and never worse than that. -/
theorem jsonPack_eq (items : List (String × PackItem)) :
    jsonPack items = if items.all (fun item => item.2.packable) then
      .ok (.object (items.map (fun item => (item.1, item.2.value)))) else .error .error := by
  rw [jsonPack, packMembers_eq]
  split <;> rfl

theorem jsonPack_ok {items : List (String × PackItem)} : jsonPack items = .ok o ↔
    items.all (fun item => item.2.packable) = true ∧
      o = .object (items.map (fun item => (item.1, item.2.value))) := by
  rw [jsonPack_eq]
  by_cases packable : items.all (fun item => item.2.packable) = true
  · simp only [packable, if_true, Except.ok.injEq, true_and]
    exact eq_comm
  · simp [packable]

end FluxPmix
