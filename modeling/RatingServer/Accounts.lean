import RatingServer.Wire.Format
import RatingServer.Wire.Record

/-!
# Accounts

The accounts that a server knows, each with a password and a mask of privileges. A
set of privileges is a mask of bits: a holder may do what needs certain privileges
when its mask has all of their bits.
-/

namespace RatingServer

/-- A set of privileges as a mask of bits. -/
structure Privileges where
  /-- The mask. -/
  bits : UInt32
  deriving DecidableEq, Repr, Inhabited

namespace Privileges

/-- No privilege. -/
def none : Privileges := ⟨0b000⟩

/-- The privilege to use the service. -/
def access : Privileges := ⟨0b001⟩

/-- The privilege to control the server, which includes access. -/
def admin : Privileges := ⟨0b011⟩

/-- The privilege to use evaluators, which includes access. -/
def evaluate : Privileges := ⟨0b101⟩

/-- Whether the mask has every bit that is required. -/
def contains (granted required : Privileges) : Bool :=
  granted.bits &&& required.bits = required.bits

/-- Whether the holder may control the server. -/
def isAdmin (p : Privileges) : Bool := p.contains admin

/-- The privileges of either of two masks. -/
def union (p q : Privileges) : Privileges := ⟨p.bits ||| q.bits⟩

instance : OrOp Privileges := ⟨union⟩

/-- The mask in binary, with at least three digits. -/
def text (p : Privileges) : String :=
  let digits := Nat.toDigits 2 p.bits.toNat
  String.ofList ('0' :: 'b' :: List.replicate (3 - digits.length) '0' ++ digits)

/-- Privileges are exchanged as the number of their mask. -/
def format : Wire.Format Privileges := Wire.Format.uint32.map mk bits

end Privileges

open Wire

/-- An account as the configuration tells it. -/
structure AccountConfig where
  /-- The name. -/
  name : String
  /-- The password. -/
  password : String
  /-- The mask of privileges. -/
  privileges : Privileges
  deriving DecidableEq, Repr

/-- The format of an account. -/
def AccountConfig.format : Format AccountConfig :=
  (((required "name" .string).and <| (required "password" .string).and <|
    required "privileges" Privileges.format).map
    (fun (a, b, c) => ⟨a, b, c⟩) (fun a => (a.name, a.password, a.privileges))).format

/-- Why an account cannot be added. -/
inductive AccountError where
  /-- There is an account of this name. -/
  | alreadyExists (name : String)
  /-- The name is empty. -/
  | emptyName
  deriving DecidableEq, Repr

namespace AccountError

/-- The kind of an error. -/
def kind : AccountError → String
  | alreadyExists _ => "AlreadyExists"
  | emptyName => "EmptyName"

/-- The text of an error. -/
def message : AccountError → String
  | alreadyExists name => "account " ++ name ++ " already exists"
  | emptyName => "account name must not be empty"

end AccountError

/-- A known account. -/
structure Account where
  /-- The password. -/
  password : String
  /-- The mask of privileges. -/
  privileges : Privileges
  deriving DecidableEq, Repr

/-- The known accounts by name. -/
abbrev Accounts := Table String Account

namespace Accounts

/-- The accounts with one more. -/
def add (accounts : Accounts) (name password : String) (privileges : Privileges) :
    Except AccountError Accounts :=
  if name = "" then .error .emptyName
  else if accounts.contains name then .error (.alreadyExists name)
  else .ok (accounts.insert name ⟨password, privileges⟩)

/-- The accounts without one, and whether there was one of the name. -/
def remove (accounts : Accounts) (name : String) : Bool × Accounts :=
  (accounts.contains name, accounts.erase name)

/-- The accounts of a configuration, in order. -/
def ofConfig (configs : List AccountConfig) : Except AccountError Accounts :=
  configs.foldlM (fun accounts a => accounts.add a.name a.password a.privileges) Table.empty

/-- Whether the account has the password, and every privilege that is required. -/
def validate (accounts : Accounts) (name password : String) (required : Privileges) : Bool :=
  match accounts.get? name with
  | none => false
  | some account => account.privileges.contains required && account.password = password

/-- An account is valid when it is there with the password and the privileges. -/
theorem validate_iff {accounts : Accounts} {name password : String} {required : Privileges} :
    accounts.validate name password required = true ↔
      ∃ account, accounts.get? name = some account ∧ account.password = password ∧
        account.privileges.contains required = true := by
  unfold validate
  cases h : accounts.get? name with
  | none => simp
  | some account => simp [and_comm]

end Accounts

end RatingServer
