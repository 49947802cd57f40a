import Mathlib.Data.List.AList

/-!
# The command registry: renames, restricted commands and aliases

`CommandRegistry` files every command a family registers (`operator<<`) in `cmd_map_`, under its
name or under the name `--rename_command` gives its first word. It marks the commands named by
`--restricted_commands` and `--oom_deny_commands`, and gives each command its ACL family and bit
index. `Init` then reads `--command_alias`: `ParseCmdlineArgMap` parses the `alias=original`
pairs, `OriginalToAliasMap` turns them around, one alias per original, and every command whose name
has an alias gets a `Clone` under that alias, copied into `cmd_map_` unless the alias is taken.

The flat hash maps are `AList`s, whose keys are distinct by construction. Their iteration order is
unspecified; where it matters (which alias `OriginalToAliasMap` keeps for an original) `Init` is
stated for every order of the parsed entries. The `CO::` and `acl::` bits, the setters of
`facade::CommandId` and `WrongNumArgsError` are declared in headers outside the sources: the bits
and the error text are the parameters `Defs`, and a setter sets its field. Handlers, validators
and latency histograms are kept by identity. The per-thread statistics `Init` sets up are left out.

## Main theorem

`init_aliasLookup`: in every registry that `operator<<` can build, after `Init` an alias `a`
configured for a registered command `o` holds the command that was already filed under `a`, or
else `o`'s clone if `a` is the alias kept for `o`'s name, or else nothing. That clone never matches
`o` in what ACL checks read, since it has no ACL bit.
-/

namespace Dragonfly.Server

/-- The `CO::` option bits and `acl::` category bits the registry reads, with
`facade::WrongNumArgsError` and `kSyntaxErrType`. All are declared outside the sources. -/
structure Defs where
  write : Nat
  readonly : Nat
  denyoom : Nat
  fast : Nat
  admin : Nat
  noscript : Nat
  blocking : Nat
  hidden : Nat
  interleavedKeys : Nat
  aclWrite : Nat
  aclRead : Nat
  aclAdmin : Nat
  aclDangerous : Nat
  aclFast : Nat
  aclBlocking : Nat
  aclSlow : Nat
  wrongNumArgsError : String → String
  syntaxErrType : String

/-- A command (the server's `CommandId` over `facade::CommandId`). `handler` and `validator` name
their `std::function` objects by identity (`none` for an empty one), and `latencyHistogram` its
`hdr_histogram`. -/
structure CommandId where
  name : String
  optMask : Nat
  arity : Int
  firstKey : Int
  lastKey : Int
  aclCategories : Nat
  implicitAcl : Bool
  isAlias : Bool
  restricted : Bool
  family : Nat
  bitIndex : Nat
  handler : Option Nat
  validator : Option Nat
  latencyHistogram : Nat
  deriving DecidableEq, Repr

/-- A failed check's reply: its message and error type. -/
structure ErrorReply where
  message : String
  kind : String
  deriving DecidableEq, Repr

/-- An `absl::flat_hash_map` keyed by strings, as the association list of its entries. -/
abbrev StrMap (β : Type) := AList (fun _ : String => β)

/-- The registry (`CommandRegistry`): the commands by key, the renames, the restricted and
DENYOOM names, the families registered so far (the current one first, each in registration order),
the next bit index of the current family and its ACL category. -/
structure CommandRegistry where
  cmdMap : StrMap CommandId
  cmdRenameMap : StrMap String
  restrictedCmds : List String
  oomdenyCmds : List String
  familyOfCommands : List (List String)
  bitIndex : Nat
  aclCategory : Option Nat

/-- What a family's registration does to the registry, one call at a time. -/
inductive RegistryOp
  | startFamily (aclCategory : Option Nat)
  | register (cmd : CommandId)

/-! ## Algorithm -/

/-- `absl::AsciiStrToUpper`. -/
def asciiStrToUpper (s : String) : String :=
  String.mk (s.data.map Char.toUpper)

/-- `flat_hash_map::emplace` (and `insert`): adds the entry unless its key is there. -/
def emplace {β : Type} (m : StrMap β) (k : String) (v : β) : StrMap β :=
  if k ∈ m then m else m.insert k v

/-- `std::copy` into `std::inserter(m, m.end())`: every entry emplaced in turn. -/
def insertAll {β : Type} (m : StrMap β) (l : List (Σ _ : String, β)) : StrMap β :=
  l.foldl (fun m e => emplace m e.1 e.2) m

/-- One mapping of `ParseCmdlineArgMap`: split at `=` into exactly two parts, upper-cased; a key
mapped to itself or a key already parsed stops the server (`exit(1)` after the logged text). -/
def parseMapping (flagName : String) (parsed : StrMap String) (mapping : String) :
    Except String (StrMap String) :=
  match mapping.data.splitOn '=' with
  | [k, v] =>
    let key := asciiStrToUpper (String.mk k)
    let value := asciiStrToUpper (String.mk v)
    if key = value then
      .error ("Invalid attempt to map " ++ key ++ " to itself in " ++ flagName)
    else if key ∈ parsed then
      .error ("Duplicate insert to " ++ flagName ++ " not allowed")
    else .ok (parsed.insert key value)
  | _ =>
    .error ("Malformed command \x27" ++ mapping ++ "\x27 for " ++ flagName ++ ", expected key=value")

/-- `ParseCmdlineArgMap(flag)`: every mapping of the flag in turn. -/
def parseCmdlineArgMap (flagName : String) (mappings : List String) :
    Except String (StrMap String) :=
  mappings.foldlM (parseMapping flagName) ∅

/-- `OriginalToAliasMap`, given the parsed `alias=original` entries in the order the map
iterates them: `emplace(original, alias)`, so the first alias of each original is kept. -/
def originalToAliasMap (aliasToOriginal : List (Σ _ : String, String)) : StrMap String :=
  aliasToOriginal.foldl (fun m p => emplace m p.2 p.1) ∅

section Commands

variable (d : Defs)

/-- `ImplicitCategories`: ADMIN implies NOSCRIPT. -/
def implicitCategories (mask : Nat) : Nat :=
  if mask &&& d.admin ≠ 0 then mask ||| d.noscript else mask

/-- `ImplicitAclCategories`: the ACL categories an option mask implies. -/
def implicitAclCategories (mask : Nat) : Nat :=
  let mask := implicitCategories d mask
  let out := 0
  let out := if mask &&& d.write ≠ 0 then out ||| d.aclWrite else out
  let out := if mask &&& d.readonly ≠ 0 ∧ mask &&& d.noscript = 0 then out ||| d.aclRead else out
  let out := if mask &&& d.admin ≠ 0 then out ||| d.aclAdmin ||| d.aclDangerous else out
  let out := if mask &&& d.fast ≠ 0 then out ||| d.aclFast else out
  let out := if mask &&& d.blocking ≠ 0 then out ||| d.aclBlocking else out
  if out &&& d.aclFast = 0 then out ||| d.aclSlow else out

/-- `CommandId`'s constructor: the mask with its implicit categories, and the ACL categories
given or else those the mask implies. The other fields keep their defaults: no alias, not
restricted, family and bit index 0, no handler, no validator. `hist` is the histogram it
allocates. -/
def CommandId.new (name : String) (mask : Nat) (arity firstKey lastKey : Int)
    (aclCategories : Option Nat) (hist : Nat) : CommandId where
  name := name
  optMask := implicitCategories d mask
  arity := arity
  firstKey := firstKey
  lastKey := lastKey
  aclCategories := aclCategories.getD (implicitAclCategories d mask)
  implicitAcl := aclCategories.isNone
  isAlias := false
  restricted := false
  family := 0
  bitIndex := 0
  handler := none
  validator := none
  latencyHistogram := hist

/-- `CommandId::Clone(name)`: a new command under `name` with the original's handler, mask plus
HIDDEN, arity, key positions, ACL categories and `implicit_acl_`, marked as an alias and sharing
the original's histogram (the one its constructor allocates is closed). -/
def CommandId.clone (c : CommandId) (name : String) : CommandId :=
  { CommandId.new d name c.optMask c.arity c.firstKey c.lastKey (some c.aclCategories)
      c.latencyHistogram with
    handler := c.handler
    optMask := c.optMask ||| d.hidden
    aclCategories := c.aclCategories
    implicitAcl := c.implicitAcl
    isAlias := true
    latencyHistogram := c.latencyHistogram }

/-- `CommandId::Validate(tail_args)`: the arity check (for EXEC prefixed as a discarded
transaction), the grouping of MSET and JSON.MSET arguments, then the validator, whose answers are
`runValidator`. -/
def CommandId.validate (runValidator : Nat → List String → Option ErrorReply) (c : CommandId)
    (tailArgs : List String) : Option ErrorReply :=
  let n : Int := tailArgs.length + 1
  if (0 < c.arity ∧ n ≠ c.arity) ∨ (c.arity < 0 ∧ n < -c.arity) then
    let pre := if c.name = "EXEC" then "-EXECABORT Transaction discarded because of: " else ""
    some ⟨pre ++ d.wrongNumArgsError c.name, d.syntaxErrType⟩
  else if c.optMask &&& d.interleavedKeys ≠ 0 ∧
      ((c.name = "JSON.MSET" ∧ tailArgs.length % 3 ≠ 0) ∨
        (c.name = "MSET" ∧ tailArgs.length % 2 ≠ 0)) then
    some ⟨d.wrongNumArgsError c.name, d.syntaxErrType⟩
  else match c.validator with
    | some v => runValidator v tailArgs
    | none => none

end Commands

/-- `SetRestricted`. -/
def CommandId.setRestricted (c : CommandId) (b : Bool) : CommandId := { c with restricted := b }

/-- `SetFlag`: adds an option bit. -/
def CommandId.setFlag (c : CommandId) (flag : Nat) : CommandId :=
  { c with optMask := c.optMask ||| flag }

/-- `SetFamily`. -/
def CommandId.setFamily (c : CommandId) (family : Nat) : CommandId := { c with family }

/-- `SetAclCategory`: the family's category is added to implicit categories only. -/
def CommandId.setAclCategory (c : CommandId) (mask : Nat) : CommandId :=
  if c.implicitAcl then { c with aclCategories := c.aclCategories ||| mask } else c

/-- `SetBitIndex`. -/
def CommandId.setBitIndex (c : CommandId) (bitIndex : Nat) : CommandId := { c with bitIndex }

/-- The registry's constructor: parses `--rename_command` and upper-cases the names of
`--restricted_commands` and `--oom_deny_commands`. -/
def CommandRegistry.new (renameCommand restrictedCommands oomDenyCommands : List String) :
    Except String CommandRegistry := do
  let cmdRenameMap ← parseCmdlineArgMap "rename_command" renameCommand
  pure { cmdMap := ∅, cmdRenameMap, restrictedCmds := restrictedCommands.map asciiStrToUpper,
         oomdenyCmds := oomDenyCommands.map asciiStrToUpper, familyOfCommands := [],
         bitIndex := 0, aclCategory := none }

/-- `1ULL << n`: the shift count is taken modulo 64, as the shift instructions of x86-64 and
AArch64 do (C++ leaves a count of 64 or more undefined), and the result is a 64-bit word. -/
def shl1ULL (n : Nat) : Nat := 1 <<< (n % 64)

/-- `n - 1` on a 64-bit unsigned integer: `0 - 1` wraps to `2^64 - 1`. -/
def sizeDec (n : Nat) : Nat := if n = 0 then 18446744073709551615 else n - 1

namespace CommandRegistry

/-- `StartFamily(acl_category)`. -/
def startFamily (r : CommandRegistry) (aclCategory : Option Nat) : CommandRegistry :=
  { r with familyOfCommands := [] :: r.familyOfCommands, bitIndex := 0, aclCategory }

/-- The key `operator<<` files a command named `name` under: the name, or the name with its first
word renamed; `none` when that word is renamed to the empty string (the command is dropped). -/
def keyOf (r : CommandRegistry) (name : String) : Option String :=
  let maybeSubcommand := name.data.splitOn ' '
  match r.cmdRenameMap.lookup (String.mk (maybeSubcommand.headD [])) with
  | none => some name
  | some v =>
    if v = "" then none
    else if maybeSubcommand.length = 2 then some (v ++ " " ++ String.mk (maybeSubcommand.getD 1 []))
    else some v

/-- The command as `operator<<` files it under `k`: restricted and DENYOOM by the flags, the
current family (`family_of_commands_.size() - 1`, a `size_t` that wraps when no family is open)
and its ACL category, and the bit index `bit`. -/
def prepare (d : Defs) (r : CommandRegistry) (k : String) (bit : Nat) (cmd : CommandId) :
    CommandId :=
  let cmd := if k ∈ r.restrictedCmds then cmd.setRestricted true else cmd
  let cmd := if k ∈ r.oomdenyCmds then cmd.setFlag d.denyoom else cmd
  let cmd := cmd.setFamily (sizeDec r.familyOfCommands.length)
  let cmd := match r.aclCategory with
    | some c => cmd.setAclCategory c
    | none => cmd
  cmd.setBitIndex bit

/-- `CHECK(cmd_map_.emplace(k, cmd).second)`: a key already there stops the server. -/
def file (r : CommandRegistry) (k : String) (cmd : CommandId) : Option CommandRegistry :=
  if k ∈ r.cmdMap then none else some { r with cmdMap := r.cmdMap.insert k cmd }

/-- `operator<<(cmd)`. A command or an ACL subcommand takes the family's next bit and joins the
family's names; any other subcommand shares the bit of the command before it (`bit_index_ - 1`,
unsigned, so it wraps when no command came before). The `DCHECK` on a subcommand's prefix is a
debug-build check and is left out. -/
def register (d : Defs) (r : CommandRegistry) (cmd : CommandId) : Option CommandRegistry :=
  match r.keyOf cmd.name with
  | none => some r
  | some k =>
    let isSubCommand := (cmd.name.data.splitOn ' ').length == 2
    if !isSubCommand || "ACL".data.isPrefixOf cmd.name.data then
      let familyOfCommands := match r.familyOfCommands with
        | f :: fs => (f ++ [k]) :: fs
        | [] => []
      { r with familyOfCommands, bitIndex := r.bitIndex + 1 }.file k
        (r.prepare d k (shl1ULL r.bitIndex) cmd)
    else r.file k (r.prepare d k (shl1ULL (sizeDec r.bitIndex)) cmd)

/-- One registration call. -/
def apply (d : Defs) (r : CommandRegistry) : RegistryOp → Option CommandRegistry
  | .startFamily c => some (r.startFamily c)
  | .register cmd => r.register d cmd

/-- A sequence of registration calls; `none` once a CHECK fails. -/
def run (d : Defs) (r : CommandRegistry) : List RegistryOp → Option CommandRegistry
  | [] => some r
  | op :: ops => (r.apply d op).bind fun r' => r'.run d ops

/-- One step of `Init`'s loop over `cmd_map_`: the clone of the entry's command under its alias,
if its name has one (`alias_to_command_id.insert`). -/
def addAlias (d : Defs) (originalToAlias : StrMap String) (acc : StrMap CommandId)
    (e : Σ _ : String, CommandId) : StrMap CommandId :=
  match originalToAlias.lookup e.2.name with
  | some a => emplace acc a (e.2.clone d a)
  | none => acc

/-- `CommandRegistry::Init`, given the parsed `--command_alias` entries in the order the map
iterates them: the clones of the loop, copied into `cmd_map_`. -/
def init (d : Defs) (aliasToOriginal : List (Σ _ : String, String)) (r : CommandRegistry) :
    CommandRegistry :=
  let originalToAlias := originalToAliasMap aliasToOriginal
  let aliasToCommandId := r.cmdMap.entries.foldl (addAlias d originalToAlias) ∅
  { r with cmdMap := insertAll r.cmdMap aliasToCommandId.entries }

/-- What `operator<<` keeps of every command it filed: the key is the one the command's name
gives, and the command has an ACL bit. -/
def Filed (r : CommandRegistry) : Prop :=
  ∀ k o, r.cmdMap.lookup k = some o → r.keyOf o.name = some k ∧ 0 < o.bitIndex

end CommandRegistry

/-- A command `c` filed under an alias dispatches and is checked by ACL as the original `o`: the
same handler, arity, key positions, option mask plus HIDDEN, ACL categories, ACL family and bit
index, restricted flag and validator. -/
def AliasOf (d : Defs) (c o : CommandId) : Prop :=
  c.handler = o.handler ∧ c.arity = o.arity ∧ c.firstKey = o.firstKey ∧ c.lastKey = o.lastKey ∧
  c.optMask = o.optMask ||| d.hidden ∧ c.aclCategories = o.aclCategories ∧ c.family = o.family ∧
  c.bitIndex = o.bitIndex ∧ c.restricted = o.restricted ∧ c.validator = o.validator

instance (d : Defs) (c o : CommandId) : Decidable (AliasOf d c o) :=
  inferInstanceAs (Decidable (_ ∧ _))

/-! ## Lemmas -/

section Maps

variable {β : Type}

theorem lookup_emplace (m : StrMap β) (k a : String) (v : β) :
    (emplace m k v).lookup a = if a = k then (m.lookup a).or (some v) else m.lookup a := by
  unfold emplace
  split_ifs with hk ha ha
  · subst ha
    obtain ⟨w, hw⟩ := Option.isSome_iff_exists.1 (AList.lookup_isSome.2 hk)
    simp [hw]
  · rfl
  · subst ha
    simp [AList.lookup_insert, AList.lookup_eq_none.2 hk]
  · exact AList.lookup_insert_ne ha

/-- After emplacing a list, a key holds what it held, or else the first value the list has for
it. -/
theorem lookup_insertAll (m : StrMap β) (l : List (Σ _ : String, β)) (a : String) :
    (insertAll m l).lookup a = (m.lookup a).or (l.dlookup a) := by
  induction l generalizing m with
  | nil => simp [insertAll]
  | cons e l ih =>
    obtain ⟨x, y⟩ := e
    simp only [insertAll, List.foldl_cons] at ih ⊢
    rw [ih, lookup_emplace]
    by_cases ha : a = x
    · subst ha
      cases m.lookup a <;> simp
    · simp [ha, List.dlookup_cons_ne l ⟨x, y⟩ ha]

theorem lookup_originalToAliasMap (l : List (Σ _ : String, String)) (n : String) :
    (originalToAliasMap l).lookup n =
      (l.map fun p => (⟨p.2, p.1⟩ : Σ _ : String, String)).dlookup n := by
  have h := lookup_insertAll ∅ (l.map fun p => (⟨p.2, p.1⟩ : Σ _ : String, String)) n
  rwa [insertAll, List.foldl_map, AList.lookup_empty, Option.none_or] at h

/-- The alias kept for an original was configured for it. -/
theorem mem_of_originalToAliasMap {l : List (Σ _ : String, String)} {n a : String}
    (h : (originalToAliasMap l).lookup n = some a) : ⟨a, n⟩ ∈ l := by
  rw [lookup_originalToAliasMap] at h
  obtain ⟨p, hp, hpa⟩ := List.mem_map.1 (List.of_mem_dlookup h)
  obtain ⟨x, y⟩ := p
  simp only [Sigma.mk.inj_iff, heq_eq_eq] at hpa
  obtain ⟨rfl, rfl⟩ := hpa
  exact hp

end Maps

section Parse

variable {flagName : String}

theorem parseMapping_ok {m m' : StrMap String} {s : String}
    (h : parseMapping flagName m s = .ok m') :
    ∃ key value, key ≠ value ∧ key ∉ m ∧ m' = m.insert key value := by
  unfold parseMapping at h
  split at h
  · dsimp only at h
    split_ifs at h with h1 h2
    cases h
    exact ⟨_, _, h1, h2, rfl⟩
  · cases h

theorem parseMapping_error {m : StrMap String} {s e : String}
    (h : parseMapping flagName m s = .error e) : flagName.data <:+: e.data := by
  unfold parseMapping at h
  split at h
  · dsimp only at h
    split_ifs at h <;> cases h <;> simp only [String.data_append]
    · exact (List.suffix_append _ _).isInfix
    · exact List.infix_append _ _ _
  · cases h
    simp only [String.data_append]
    exact List.infix_append _ _ _

/-- A map `ParseCmdlineArgMap` accepts maps no key to itself. -/
theorem parseCmdlineArgMap_ne {ms : List String} {m : StrMap String}
    (h : parseCmdlineArgMap flagName ms = .ok m) : ∀ k v, m.lookup k = some v → k ≠ v := by
  suffices ∀ (ms : List String) (m₀ : StrMap String), (∀ k v, m₀.lookup k = some v → k ≠ v) →
      ms.foldlM (parseMapping flagName) m₀ = .ok m → ∀ k v, m.lookup k = some v → k ≠ v from
    this ms ∅ (by simp) h
  intro ms
  induction ms with
  | nil => intro m₀ h₀ h; cases h; exact h₀
  | cons s ms ih =>
    intro m₀ h₀ h
    simp only [List.foldlM_cons] at h
    cases hs : parseMapping flagName m₀ s with
    | error e => rw [hs] at h; cases h
    | ok m₁ =>
      rw [hs] at h
      refine ih m₁ ?_ h
      obtain ⟨key, value, hne, -, rfl⟩ := parseMapping_ok hs
      intro k v hk
      by_cases hkey : k = key
      · subst hkey
        rw [AList.lookup_insert] at hk
        cases hk
        exact hne
      · exact h₀ k v (by rwa [AList.lookup_insert_ne hkey] at hk)

/-- Every error of `ParseCmdlineArgMap` names its flag. -/
theorem parseCmdlineArgMap_error {ms : List String} {e : String}
    (h : parseCmdlineArgMap flagName ms = .error e) : flagName.data <:+: e.data := by
  suffices ∀ (ms : List String) (m₀ : StrMap String),
      ms.foldlM (parseMapping flagName) m₀ = .error e →
      flagName.data <:+: e.data from this ms ∅ h
  intro ms
  induction ms with
  | nil => intro m₀ h; cases h
  | cons s ms ih =>
    intro m₀ h
    simp only [List.foldlM_cons] at h
    cases hs : parseMapping flagName m₀ s with
    | error e' => rw [hs] at h; cases h; exact parseMapping_error hs
    | ok m₁ => rw [hs] at h; exact ih m₁ h

end Parse

section Registry

variable (d : Defs)

@[simp] theorem CommandId.setRestricted_name (c : CommandId) (b : Bool) :
    (c.setRestricted b).name = c.name := rfl

@[simp] theorem CommandId.setFlag_name (c : CommandId) (f : Nat) : (c.setFlag f).name = c.name :=
  rfl

@[simp] theorem CommandId.setFamily_name (c : CommandId) (f : Nat) :
    (c.setFamily f).name = c.name := rfl

@[simp] theorem CommandId.setAclCategory_name (c : CommandId) (m : Nat) :
    (c.setAclCategory m).name = c.name := by
  unfold CommandId.setAclCategory; split <;> rfl

@[simp] theorem CommandId.setBitIndex_name (c : CommandId) (b : Nat) :
    (c.setBitIndex b).name = c.name := rfl

@[simp] theorem CommandId.setBitIndex_bitIndex (c : CommandId) (b : Nat) :
    (c.setBitIndex b).bitIndex = b := rfl

@[simp] theorem CommandId.clone_bitIndex (c : CommandId) (a : String) :
    (c.clone d a).bitIndex = 0 := rfl

namespace CommandRegistry

variable {d} {r r' : CommandRegistry}

@[simp] theorem prepare_bitIndex (k : String) (bit : Nat) (cmd : CommandId) :
    (r.prepare d k bit cmd).bitIndex = bit := rfl

theorem prepare_name (k : String) (bit : Nat) (cmd : CommandId) :
    (r.prepare d k bit cmd).name = cmd.name := by
  unfold prepare
  split_ifs <;> split <;> simp

theorem keyOf_congr (h : r'.cmdRenameMap = r.cmdRenameMap) : r'.keyOf = r.keyOf := by
  funext name
  simp only [keyOf, h]

theorem file_eq {k : String} {c : CommandId} (h : r.file k c = some r') :
    k ∉ r.cmdMap ∧ r' = { r with cmdMap := r.cmdMap.insert k c } := by
  unfold file at h
  split_ifs at h with hk
  exact ⟨hk, (Option.some.inj h).symm⟩

/-- What `operator<<` can do: leave the commands alone (a dropped command), or file one command
with the command's name and an ACL bit under the key its name gives, a key not yet taken. The
renames never change. -/
theorem register_cases {cmd : CommandId} (h : r.register d cmd = some r') :
    r'.cmdRenameMap = r.cmdRenameMap ∧
      (r'.cmdMap = r.cmdMap ∨ ∃ k c, r.keyOf cmd.name = some k ∧ k ∉ r.cmdMap ∧
        c.name = cmd.name ∧ 0 < c.bitIndex ∧ r'.cmdMap = r.cmdMap.insert k c) := by
  unfold register at h
  split at h
  · cases h
    exact ⟨rfl, .inl rfl⟩
  · rename_i k hk
    dsimp only at h
    split_ifs at h
    all_goals
      obtain ⟨hfree, rfl⟩ := file_eq h
      refine ⟨rfl, .inr ⟨k, _, hk, hfree, prepare_name _ _ _, ?_, rfl⟩⟩
      simp [shl1ULL, Nat.one_shiftLeft, Nat.two_pow_pos]

theorem filed_apply {op : RegistryOp} (hf : r.Filed) (h : r.apply d op = some r') : r'.Filed := by
  cases op with
  | startFamily c => cases h; exact hf
  | register cmd =>
    obtain ⟨hren, hmap⟩ := register_cases h
    intro k o hk
    rw [keyOf_congr hren]
    rcases hmap with hmap | ⟨k', c, hkey, -, hname, hbit, hmap⟩
    · exact hf k o (hmap ▸ hk)
    · rw [hmap] at hk
      by_cases hkk : k = k'
      · subst hkk
        rw [AList.lookup_insert] at hk
        cases hk
        exact ⟨hname ▸ hkey, hbit⟩
      · exact hf k o (by rwa [AList.lookup_insert_ne hkk] at hk)

theorem filed_run {ops : List RegistryOp} (hf : r.Filed) (h : r.run d ops = some r') :
    r'.Filed := by
  induction ops generalizing r with
  | nil => cases h; exact hf
  | cons op ops ih =>
    obtain ⟨r₁, h₁, h⟩ := Option.bind_eq_some.1 h
    exact ih (filed_apply hf h₁) h

theorem filed_new {renameCommand restrictedCommands oomDenyCommands : List String}
    (h : CommandRegistry.new renameCommand restrictedCommands oomDenyCommands = .ok r) :
    r.Filed := by
  unfold CommandRegistry.new at h
  cases hp : parseCmdlineArgMap "rename_command" renameCommand <;> rw [hp] at h <;> cases h
  intro k o hk
  simp at hk

/-- Two commands filed under keys whose names agree are one entry. -/
theorem Filed.eq_of_name (hf : r.Filed) {k k' : String} {o o' : CommandId}
    (ho : r.cmdMap.lookup k = some o) (ho' : r.cmdMap.lookup k' = some o')
    (hname : o'.name = o.name) : k' = k ∧ o' = o := by
  have hk : k' = k := by
    have := (hf k' o' ho').1
    rw [hname, (hf k o ho).1] at this
    exact (Option.some.inj this).symm
  subst hk
  exact ⟨rfl, Option.some.inj (ho'.symm.trans ho)⟩

theorem foldl_addAlias (ota : StrMap String) (cmds : List (Σ _ : String, CommandId))
    (acc : StrMap CommandId) :
    cmds.foldl (addAlias d ota) acc =
      insertAll acc
        (cmds.filterMap fun e => (ota.lookup e.2.name).map fun x => ⟨x, e.2.clone d x⟩) := by
  induction cmds generalizing acc with
  | nil => rfl
  | cons e cmds ih =>
    rw [List.foldl_cons, ih, List.filterMap_cons]
    unfold addAlias
    cases ota.lookup e.2.name <;> rfl

end CommandRegistry

/-- An alias runs no validator and, unless it is itself named MSET or JSON.MSET, checks only the
arity of its original: every argument list of a length the original accepts passes. -/
theorem CommandId.validate_clone (runValidator : Nat → List String → Option ErrorReply)
    (o : CommandId) (a : String) (tail : List String) (hmset : a ≠ "MSET") (hjson : a ≠ "JSON.MSET")
    (harity : ¬((0 < o.arity ∧ (tail.length + 1 : Int) ≠ o.arity) ∨
      (o.arity < 0 ∧ (tail.length + 1 : Int) < -o.arity))) :
    (o.clone d a).validate d runValidator tail = none := by
  simp [CommandId.validate, CommandId.clone, CommandId.new, hmset, hjson, harity]

theorem CommandId.aliasOf_clone_iff (o : CommandId) (a : String) :
    AliasOf d (o.clone d a) o ↔
      0 = o.family ∧ 0 = o.bitIndex ∧ false = o.restricted ∧ none = o.validator := by
  simp [AliasOf, CommandId.clone, CommandId.new]

end Registry

section Init

open CommandRegistry

variable (d : Defs) {r : CommandRegistry} {parsed : StrMap String}
  {order : List (Σ _ : String, String)} {k a : String} {o : CommandId}

/-- The clone under `a` comes from the registered command of the name configured for `a`. -/
theorem eq_of_aliasEntry (hf : r.Filed) (horder : order.Perm parsed.entries)
    (ho : r.cmdMap.lookup k = some o) (ha : parsed.lookup a = some o.name)
    {e : Σ _ : String, CommandId} (he : e ∈ r.cmdMap.entries)
    (hea : (originalToAliasMap order).lookup e.2.name = some a) : e = ⟨k, o⟩ := by
  have hconf : parsed.lookup a = some e.2.name :=
    AList.mem_lookup_iff.2 (horder.mem_iff.1 (mem_of_originalToAliasMap hea))
  have hname : e.2.name = o.name := Option.some.inj (hconf.symm.trans ha)
  obtain ⟨rfl, rfl⟩ := hf.eq_of_name ho (AList.mem_lookup_iff.2 he) hname
  rfl

theorem dlookup_aliasEntries (hf : r.Filed) (horder : order.Perm parsed.entries)
    (ho : r.cmdMap.lookup k = some o) (ha : parsed.lookup a = some o.name) :
    (r.cmdMap.entries.filterMap fun e =>
        ((originalToAliasMap order).lookup e.2.name).map fun x => ⟨x, e.2.clone d x⟩).dlookup a =
      if (originalToAliasMap order).lookup o.name = some a then some (o.clone d a) else none := by
  set L := r.cmdMap.entries.filterMap fun e =>
    ((originalToAliasMap order).lookup e.2.name).map fun x => (⟨x, e.2.clone d x⟩ : Σ _ : String, _)
  have hsrc : ∀ b, ⟨a, b⟩ ∈ L →
      (originalToAliasMap order).lookup o.name = some a ∧ b = o.clone d a := by
    intro b hb
    obtain ⟨e, he, hg⟩ := List.mem_filterMap.1 hb
    obtain ⟨x, hx, hxe⟩ := Option.map_eq_some'.1 hg
    simp only [Sigma.mk.inj_iff, heq_eq_eq] at hxe
    obtain ⟨rfl, rfl⟩ := hxe
    obtain rfl := eq_of_aliasEntry hf horder ho ha he hx
    exact ⟨hx, rfl⟩
  split_ifs with hkept
  · have hmem : (⟨a, o.clone d a⟩ : Σ _ : String, _) ∈ L :=
      List.mem_filterMap.2 ⟨⟨k, o⟩, AList.mem_lookup_iff.1 ho, by simp [hkept]⟩
    obtain ⟨b, hb⟩ := Option.isSome_iff_exists.1 (List.dlookup_isSome.2 (List.mem_keys_of_mem hmem))
    rw [hb, (hsrc b (List.of_mem_dlookup hb)).2]
  · refine List.dlookup_eq_none.2 fun hkey => ?_
    obtain ⟨b, hb⟩ := List.mem_keys.1 hkey
    exact hkept (hsrc b hb).1

/-- After `Init`, an alias `a` configured for a registered command `o` holds the command already
filed under `a`, or else `o`'s clone when `a` is the alias `OriginalToAliasMap` kept for `o`'s
name (for the order in which the parsed map is iterated), or else nothing. The clone is never
`AliasOf` `o`: every filed command has an ACL bit, the clone none. -/
theorem init_aliasLookup {renameCommand restrictedCommands oomDenyCommands : List String}
    {r₀ : CommandRegistry} {ops : List RegistryOp}
    (hnew : CommandRegistry.new renameCommand restrictedCommands oomDenyCommands = .ok r₀)
    (hrun : r₀.run d ops = some r) (horder : order.Perm parsed.entries)
    (ho : r.cmdMap.lookup k = some o) (ha : parsed.lookup a = some o.name) :
    (r.init d order).cmdMap.lookup a =
        (r.cmdMap.lookup a).or
          (if (originalToAliasMap order).lookup o.name = some a then some (o.clone d a) else none) ∧
      ¬ AliasOf d (o.clone d a) o := by
  have hf : r.Filed := filed_run (filed_new hnew) hrun
  refine ⟨?_, fun h => ?_⟩
  · simp only [init, lookup_insertAll, foldl_addAlias]
    rw [← AList.lookup, lookup_insertAll, AList.lookup_empty, Option.none_or,
      dlookup_aliasEntries d hf horder ho ha]
  · exact absurd ((CommandId.aliasOf_clone_iff d o a).1 h).2.1 (hf k o ho).2.ne

/-- `--restricted_commands=mset --command_alias=ms=mset,m2=mset`, with MSET (a validator, mask
WRITE, DENYOOM and INTERLEAVED_KEYS) the first command of a family of ACL category 8. The parsed map
iterates M2 first, so M2 is kept and MS is never filed. M2 is not restricted, has no ACL bit and
no validator, and its Validate passes the three arguments `k1 v1 k2` that MSET's rejects. -/
theorem init_aliasLookup_restrictedMset :
    let d : Defs := ⟨1, 2, 4, 8, 64, 128, 256, 512, 1024, 1, 2, 4, 8, 16, 32, 64,
      fun _ => "wrong number of arguments", "syntax_error"⟩
    let mset : CommandId :=
      { CommandId.new d "MSET" 1029 (-3) 1 (-1) none 1 with handler := some 1, validator := some 2 }
    let filed : CommandId :=
      { mset with restricted := true, aclCategories := mset.aclCategories ||| 8, bitIndex := 1 }
    let r : CommandRegistry := ⟨[⟨"MSET", filed⟩].toAList, ∅, ["MSET"], [], [["MSET"]], 1, some 8⟩
    let order : List (Σ _ : String, String) := [⟨"M2", "MSET"⟩, ⟨"MS", "MSET"⟩]
    let rejectAll : Nat → List String → Option ErrorReply := fun _ _ => some ⟨"bad", "syntax_error"⟩
    parseCmdlineArgMap "command_alias" ["ms=mset", "m2=mset"] = .ok order.toAList ∧
      ((r.init d order).cmdMap.lookup "M2" = some (filed.clone d "M2") ∧
        ¬ AliasOf d (filed.clone d "M2") filed) ∧
      (r.init d order).cmdMap.lookup "MS" = none ∧
      filed.restricted = true ∧ (filed.clone d "M2").restricted = false ∧
      filed.validate d rejectAll ["k1", "v1", "k2"] ≠ none ∧
      (filed.clone d "M2").validate d rejectAll ["k1", "v1", "k2"] = none := by
  intro d mset filed r order rejectAll
  have hnew : CommandRegistry.new [] ["mset"] [] = .ok ⟨∅, ∅, ["MSET"], [], [], 0, none⟩ := rfl
  have hrun : CommandRegistry.run d ⟨∅, ∅, ["MSET"], [], [], 0, none⟩
      [.startFamily (some 8), .register mset] = some r := rfl
  have hperm : order.Perm order.toAList.entries := by decide
  have hmset : r.cmdMap.lookup "MSET" = some filed := rfl
  have hM2 := init_aliasLookup d hnew hrun hperm hmset (show order.toAList.lookup "M2" = _ from rfl)
  have hMS := init_aliasLookup d hnew hrun hperm hmset (show order.toAList.lookup "MS" = _ from rfl)
  exact ⟨rfl, ⟨hM2.1.trans (by decide), hM2.2⟩, hMS.1.trans (by decide), rfl, rfl, by decide,
    by decide⟩

end Init

end Dragonfly.Server
