import Mathlib.Data.List.Basic

/-! The names of a group device: the one the kernel gives its node, the one udev links
to it under `/dev/synch`, and the one the library opens. -/

namespace Tsm.Module

/-- `sprintf` with one number, for formats whose only conversion is `%d`. -/
def sprintf (value : Nat) : List Char → List Char
  | '%' :: 'd' :: rest => Nat.toDigits 10 value ++ sprintf value rest
  | char :: rest => char :: sprintf value rest
  | [] => []

def GROUP_DEVICE_NAME : List Char := "group_dev".toList
def GROUP_FORMAT : List Char := "group_dev%d".toList
def GROUP_DEV : List Char := "/dev/synch/group_dev%d".toList

/-! The macros multiply only the 3 by `sizeof(char)`. -/

def GROUP_FORMAT_LENGTH : Nat := GROUP_FORMAT.length + 3
def GROUP_DEV_LENGTH : Nat := GROUP_DEV.length + 3

/-- The name of the node with this minor. -/
def deviceName (minor : Nat) : List Char := sprintf minor GROUP_FORMAT

/-- What the library opens for this descriptor. -/
def groupDevName (desc : Nat) : List Char := sprintf desc GROUP_DEV

/-- `KERNEL=="group_dev[0-9]*"`. -/
def kernelMatches (name : List Char) : Bool :=
  GROUP_DEVICE_NAME.isPrefixOf name && (name.drop GROUP_DEVICE_NAME.length).head?.any Char.isDigit

/-- `%n`: the digits a name ends with. -/
def kernelNumber (name : List Char) : List Char := (name.reverse.takeWhile Char.isDigit).reverse

/-- `SYMLINK+="synch/group_dev%n"`, in `/dev`. -/
def symlink (name : List Char) : Option (List Char) :=
  if kernelMatches name then some ("/dev/synch/group_dev".toList ++ kernelNumber name) else none

theorem sprintf_append (value : Nat) {text : List Char} (plain : '%' ∉ text) (rest : List Char) :
    sprintf value (text ++ rest) = text ++ sprintf value rest := by
  induction text with
  | nil => rfl
  | cons char text ih =>
    obtain ⟨other, plain⟩ := not_or.mp (mt List.mem_cons.mpr plain)
    have goesOn : sprintf value (char :: (text ++ rest)) = char :: sprintf value (text ++ rest) :=
      sprintf.eq_2 value char (text ++ rest) fun _ same => absurd same.symm other
    rw [List.cons_append, goesOn, ih plain, List.cons_append]

theorem sprintf_number (value : Nat) : sprintf value "%d".toList = Nat.toDigits 10 value := by
  simp [sprintf]

theorem deviceName_eq (minor : Nat) : deviceName minor = GROUP_DEVICE_NAME ++ Nat.toDigits 10 minor := by
  have format : GROUP_FORMAT = GROUP_DEVICE_NAME ++ "%d".toList := by decide
  rw [deviceName, format, sprintf_append minor (by decide), sprintf_number]

theorem groupDevName_eq (desc : Nat) : groupDevName desc = "/dev/synch/group_dev".toList ++ Nat.toDigits 10 desc := by
  have format : GROUP_DEV = "/dev/synch/group_dev".toList ++ "%d".toList := by decide
  rw [groupDevName, format, sprintf_append desc (by decide), sprintf_number]

theorem kernelNumber_deviceName (minor : Nat) : kernelNumber (deviceName minor) = Nat.toDigits 10 minor := by
  have digits : ∀ char ∈ (Nat.toDigits 10 minor).reverse, char.isDigit = true := fun char member =>
    Nat.isDigit_of_mem_toDigits (by decide) (by decide) (List.mem_reverse.mp member)
  have letters : GROUP_DEVICE_NAME.reverse.takeWhile Char.isDigit = [] := by decide
  rw [kernelNumber, deviceName_eq, List.reverse_append, List.takeWhile_append_of_pos digits, letters, List.append_nil,
    List.reverse_reverse]

theorem kernelMatches_deviceName (minor : Nat) : kernelMatches (deviceName minor) = true := by
  obtain ⟨first, rest, digits⟩ := List.exists_cons_of_ne_nil (Nat.toDigits_ne_nil (n := minor) (b := 10))
  have digit : first.isDigit = true :=
    Nat.isDigit_of_mem_toDigits (by decide) (by decide) (digits ▸ List.mem_cons_self)
  simp [kernelMatches, deviceName_eq, digits, digit]

/-- The rule links each node to the name the library opens for its minor. -/
theorem symlink_deviceName (minor : Nat) : symlink (deviceName minor) = some (groupDevName minor) := by
  rw [symlink, kernelMatches_deviceName, if_pos rfl, kernelNumber_deviceName, groupDevName_eq]

theorem groupDevName_injective {desc desc' : Nat} (same : groupDevName desc = groupDevName desc') : desc = desc' := by
  rw [groupDevName_eq, groupDevName_eq] at same
  have digits := congrArg (fun digits => Nat.ofDigitChars 10 digits 0) (List.append_cancel_left same)
  simpa using digits

/-- Both buffers hold the name of every descriptor, with the terminator. -/
theorem names_fit (desc : UInt8) :
    (deviceName desc.toNat).length < GROUP_FORMAT_LENGTH ∧ (groupDevName desc.toNat).length < GROUP_DEV_LENGTH := by
  have digits : (Nat.toDigits 10 desc.toNat).length ≤ 3 :=
    (Nat.length_toDigits_le_iff (by decide) (by decide)).mpr (Nat.lt_of_lt_of_le desc.toNat_lt (by decide))
  have name : GROUP_DEVICE_NAME.length = 9 := rfl
  have path : "/dev/synch/group_dev".toList.length = 20 := rfl
  have format : GROUP_FORMAT_LENGTH = 14 := rfl
  have dev : GROUP_DEV_LENGTH = 25 := rfl
  rw [deviceName_eq, groupDevName_eq, List.length_append, List.length_append]
  omega

example : deviceName 12 = "group_dev12".toList := by decide

end Tsm.Module
