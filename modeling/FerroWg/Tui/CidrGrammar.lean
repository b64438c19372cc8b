import FerroWg.Core.Disk
import FerroWg.Tui.FieldValues

/-!
# CIDR notation

The grammar of `address/length` against `is_valid_cidr`, which leaves the length to the parser of
integers.
-/

namespace FerroWg.Tui

open Lib Text

/-- The longest prefix of an address. -/
def addressBits : IpAddr → Nat
  | .v4 _ => 32
  | .v6 _ => 128

theorem slash_not_mem_digits {digits : List Char} {n : Nat} (decimal : Decimal digits n) :
    '/' ∉ digits := by
  intro slash
  have digit := decimal.decimal _ slash
  cases digit

section

variable [Externals]

/-- An address, one slash, and a prefix length in decimal digits after a given sign. -/
def CidrWith (sign : List Char) (t : String) : Prop :=
  ∃ ip address digits n, Externals.parseIp ip = some address ∧ '/' ∉ ip.toList ∧
    t.toList = ip.toList ++ '/' :: (sign ++ digits) ∧ Decimal digits n ∧ n ≤ addressBits address

/-- CIDR notation. -/
def IsCidr (t : String) : Prop := CidrWith [] t

/-- The same with a plus sign in front of the length. -/
def SignedCidr (t : String) : Prop := CidrWith ['+'] t

theorem cidrWith_iff_split {sign : List Char} (solid : '/' ∉ sign) {t : String} :
    CidrWith sign t ↔ ∃ ip bits address digits n, split '/' t = [ip, bits] ∧
      Externals.parseIp ip = some address ∧ bits.toList = sign ++ digits ∧ Decimal digits n ∧
        n ≤ addressBits address := by
  constructor
  · rintro ⟨ip, address, digits, n, parsed, whole, text, decimal, short⟩
    refine ⟨ip, .ofList (sign ++ digits), address, digits, n, ?_, parsed, by simp, decimal, short⟩
    rw [split_eq_pair_iff]
    exact ⟨by simpa using text, whole, by simp [solid, slash_not_mem_digits decimal]⟩
  · rintro ⟨ip, bits, address, digits, n, parts, parsed, text, decimal, short⟩
    obtain ⟨whole, free, _⟩ := split_eq_pair_iff.mp parts
    exact ⟨ip, address, digits, n, parsed, free, text ▸ whole, decimal, short⟩

theorem not_signed_of_cidr {t : String} (cidr : IsCidr t) : ¬SignedCidr t := by
  intro signed
  obtain ⟨ip, bits, _, digits, n, parts, _, text, decimal, _⟩ :=
    (cidrWith_iff_split (by simp)).mp cidr
  obtain ⟨ip', bits', _, digits', _, parts', _, text', _⟩ :=
    (cidrWith_iff_split (by decide)).mp signed
  obtain ⟨-, rest⟩ := List.cons.inj (parts.symm.trans parts')
  obtain rfl := (List.cons.inj rest).1
  have plus : '+' ∈ digits := by
    rw [List.nil_append] at text
    simp [← text, text']
  have digit := decimal.decimal _ plus
  cases digit

theorem isValidCidr_iff_parse {t : String} :
    isValidCidr t = true ↔ ∃ ip address bits, ∃ p : UInt8, split '/' t = [ip, bits] ∧
      Externals.parseIp ip = some address ∧ parseU8 bits = .ok p ∧
        p.toNat ≤ addressBits address := by
  rw [isValidCidr]
  split
  · rename_i ip bits parts
    cases address : Externals.parseIp ip with
    | none => simp [parts, address]
    | some a =>
      cases read : parseU8 bits with
      | error e => cases a <;> simp [parts, read]
      | ok p => cases a <;> simp [parts, address, read, addressBits, UInt8.le_iff_toNat_le]
  · rename_i other
    simp only [Bool.false_eq_true, false_iff]
    rintro ⟨ip, address, bits, p, parts, _⟩
    exact other ip bits parts

/-- The parser of integers takes a plus sign, and so does the check. -/
theorem isValidCidr_iff {t : String} : isValidCidr t = true ↔ IsCidr t ∨ SignedCidr t := by
  rw [isValidCidr_iff_parse, IsCidr, SignedCidr, cidrWith_iff_split (by simp),
    cidrWith_iff_split (by decide)]
  constructor
  · rintro ⟨ip, address, bits, p, parts, parsed, read, short⟩
    obtain ⟨digits, decimal, plain | plus⟩ := parseU8_ok_iff.mp read
    · exact .inl ⟨ip, bits, address, digits, _, parts, parsed, plain, decimal, short⟩
    · exact .inr ⟨ip, bits, address, digits, _, parts, parsed, plus, decimal, short⟩
  · have fits {n : Nat} {address : IpAddr} (short : n ≤ addressBits address) :
        (UInt8.ofNat n).toNat = n := by
      apply UInt8.toNat_ofNat_of_lt'
      cases address <;> simp only [addressBits] at short <;> simp only [UInt8.size] <;> omega
    rintro (⟨ip, bits, address, digits, n, parts, parsed, text, decimal, short⟩ |
      ⟨ip, bits, address, digits, n, parts, parsed, text, decimal, short⟩)
    · refine ⟨ip, address, bits, .ofNat n, parts, parsed, parseU8_ok_iff.mpr ?_, ?_⟩
      · exact (fits short).symm ▸ ⟨digits, decimal, .inl text⟩
      · exact (fits short).symm ▸ short
    · refine ⟨ip, address, bits, .ofNat n, parts, parsed, parseU8_ok_iff.mpr ?_, ?_⟩
      · exact (fits short).symm ▸ ⟨digits, decimal, .inr text⟩
      · exact (fits short).symm ▸ short

/-- Every token is CIDR notation. -/
def CidrList (s : String) : Prop := ∀ t ∈ parseCommaList s, IsCidr t

/-- What the duplicate checks ask for. -/
def FreshCidrs (s : String) (others : List String) : Prop :=
  (∀ t ∈ parseCommaList s, t ∉ others) ∧ (parseCommaList s).Nodup

/-- Some token has a plus sign, and all are CIDR notation but for such signs. -/
def PlusInCidrs (s : String) : Prop :=
  (∀ t ∈ parseCommaList s, IsCidr t ∨ SignedCidr t) ∧ ∃ t ∈ parseCommaList s, SignedCidr t

theorem validateAddresses_ok_iff {s : String} :
    validateAddresses s = .ok () ↔ CidrList s ∨ PlusInCidrs s := by
  rw [validateAddresses, validateTokens_ok_iff]
  simp only [isValidCidr_iff, PlusInCidrs, CidrList]
  constructor
  · intro each
    by_cases signed : ∃ t ∈ parseCommaList s, SignedCidr t
    · exact .inr ⟨each, signed⟩
    · left
      intro t listed
      exact (each t listed).resolve_right fun plus => signed ⟨t, listed, plus⟩
  · rintro (plain | ⟨each, _⟩)
    · exact fun t listed => .inl (plain t listed)
    · exact each

theorem validateAllowedIps_ok_iff_addresses {s : String} {others : List String} :
    validateAllowedIps s others = .ok () ↔ validateAddresses s = .ok () ∧ FreshCidrs s others := by
  rw [validateAllowedIps_ok_iff, validateAddresses, validateTokens_ok_iff, FreshCidrs]
  constructor
  · rintro ⟨each, nodup⟩
    exact ⟨fun t listed => (each t listed).1, fun t listed => (each t listed).2, nodup⟩
  · rintro ⟨valid, fresh, nodup⟩
    exact ⟨fun t listed => ⟨valid t listed, fresh t listed⟩, nodup⟩

theorem not_plusInCidrs_of_cidrList {s : String} (plain : CidrList s) : ¬PlusInCidrs s := by
  rintro ⟨_, t, listed, signed⟩
  exact not_signed_of_cidr (plain t listed) signed

/-- The checks accept CIDR notation and nothing else, unless a plus sign is all that is wrong with
the list. -/
theorem cidr_accepted_iff (s : String) :
    ((validateAddresses s = .ok () ↔ CidrList s) ∧
      ∀ others, validateAllowedIps s others = .ok () ↔ CidrList s ∧ FreshCidrs s others) ↔
    ¬PlusInCidrs s := by
  simp only [validateAllowedIps_ok_iff_addresses, validateAddresses_ok_iff]
  constructor
  · rintro ⟨exact_, _⟩ plus
    exact not_plusInCidrs_of_cidrList (exact_.mp (.inr plus)) plus
  · intro plain
    simp [plain]

end

namespace CidrSample

@[reducible] def externals : Externals :=
  { Externals.tabulated [] [] [] with
    parseIp := fun s => if s = "10.0.0.0" then some (.v4 0x0A000000) else none }

theorem decimal_24 : Decimal ['2', '4'] 24 where
  nonempty := by simp
  decimal := List.all_eq_true.mp (by decide : ['2', '4'].all Char.isDigit = true)
  value := by decide

theorem signed : @SignedCidr externals "10.0.0.0/+24" :=
  ⟨"10.0.0.0", .v4 0x0A000000, ['2', '4'], 24, if_pos rfl, by simp, by simp, decimal_24, by decide⟩

end CidrSample

open CidrSample in
/-- A plus sign passes. -/
theorem plus_accepted :
    ¬∀ s, @validateAddresses externals s = .ok () ↔ @CidrList externals s := by
  intro exact_
  have token : parseCommaList "10.0.0.0/+24" = ["10.0.0.0/+24"] := rfl
  have listed : "10.0.0.0/+24" ∈ parseCommaList "10.0.0.0/+24" := by simp [token]
  have accepted : @validateAddresses externals "10.0.0.0/+24" = .ok () := by
    apply (@validateAddresses_ok_iff externals _).mpr
    right
    rw [@PlusInCidrs.eq_def, token]
    simp [signed]
  exact @not_signed_of_cidr externals _ ((exact_ _).mp accepted _ listed) signed

end FerroWg.Tui
