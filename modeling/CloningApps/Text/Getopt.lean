import CloningApps.Text.CString

/-! # `getopt_long` as it is documented

The arguments are scanned from left to right. An option that requires an argument
takes the rest of its own argument or the next one, whatever that is; operands
are moved behind the options; `--` ends the scan. The caller sees one event for
every value that `getopt_long` returns.
-/

namespace CloningApps.Text

/-- A row of the table of long options, with `flag = NULL`. -/
structure LongOpt where
  name : CStr
  required : Bool
  val : Byte

structure OptTable where
  short : CStr
  long : List LongOpt

/-- An option with `optarg`, or `'?'`. -/
inductive GetoptEvent where
  | option (val : Byte) (optarg : Option CStr)
  | invalid
  deriving DecidableEq

/-- What one argument makes `getopt_long` return, and the option that still wants the next
argument. -/
structure Reading where
  events : List GetoptEvent
  wants : Option Byte
  deriving DecidableEq

def Reading.cons (e : GetoptEvent) (r : Reading) : Reading := ⟨e :: r.events, r.wants⟩

/-- Whether the option character requires an argument, if it is one. -/
def shortArg : CStr → Byte → Option Bool
  | [], _ => none
  | x :: xs, c => if x = c ∧ c ≠ 58 then some (xs.head? = some 58) else shortArg xs c

/-- A cluster of option characters. -/
def readShort (table : OptTable) : CStr → Reading
  | [] => ⟨[], none⟩
  | c :: cs =>
    match shortArg table.short c with
    | none => (readShort table cs).cons .invalid
    | some false => (readShort table cs).cons (.option c none)
    | some true => if cs = [] then ⟨[], some c⟩ else ⟨[.option c (some cs)], none⟩

/-- A name may be abbreviated as long as the abbreviation is unique. -/
def findLong (long : List LongOpt) (name : CStr) : Option LongOpt :=
  match long.find? (fun o => o.name = name) with
  | some o => some o
  | none =>
    match long.filter (fun o => name.isPrefixOf o.name) with
    | [o] => some o
    | _ => none

def notEquals (c : Byte) : Bool := c ≠ 61

/-- A long option behind its dashes, perhaps with a value behind `=`. -/
def readLong (table : OptTable) (arg : CStr) : Reading :=
  match findLong table.long (arg.takeWhile notEquals), arg.dropWhile notEquals with
  | none, _ => ⟨[.invalid], none⟩
  | some o, [] => if o.required then ⟨[], some o.val⟩ else ⟨[.option o.val none], none⟩
  | some o, _ :: value =>
    if o.required then ⟨[.option o.val (some value)], none⟩ else ⟨[.invalid], none⟩

/-- The kinds of arguments a scan meets. -/
inductive ArgKind where
  | operand
  | terminator
  | options (r : Reading)
  deriving DecidableEq

def argKind (table : OptTable) : CStr → ArgKind
  | [45, 45] => .terminator
  | 45 :: 45 :: name => .options (readLong table name)
  | 45 :: c :: cs => .options (readShort table (c :: cs))
  | _ => .operand

theorem argKind_operand {table : OptTable} {arg : CStr} (h : arg.head? ≠ some 45) :
    argKind table arg = .operand := by
  unfold argKind
  split <;> first | rfl | simp at h

theorem argKind_cluster {table : OptTable} {c : Byte} {cs : CStr} (h : c ≠ 45) :
    argKind table (45 :: c :: cs) = .options (readShort table (c :: cs)) := by
  unfold argKind
  split
  next heq => simp_all
  next heq => simp_all
  next heq =>
    cases heq
    rfl
  next hnot => exact absurd rfl (hnot c cs)

/-- Everything `getopt_long` returns, and the operands that it leaves behind. -/
structure Scan where
  events : List GetoptEvent
  operands : List CStr

def getoptLong (table : OptTable) : List CStr → Scan
  | [] => ⟨[], []⟩
  | arg :: rest =>
    match argKind table arg with
    | .operand =>
      let scan := getoptLong table rest
      { scan with operands := arg :: scan.operands }
    | .terminator => ⟨[], rest⟩
    | .options ⟨events, none⟩ =>
      let scan := getoptLong table rest
      { scan with events := events ++ scan.events }
    | .options ⟨events, some val⟩ =>
      match rest with
      | [] => ⟨events ++ [.invalid], []⟩
      | next :: rest =>
        let scan := getoptLong table rest
        { scan with events := events ++ .option val (some next) :: scan.events }

end CloningApps.Text
