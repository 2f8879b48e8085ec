import InstallLocator.KeyValues
import InstallLocator.Text.Digits

/-!
# App manifests

The manifest of an installed app names its directory below the library. It is
accepted as a whole or not at all: each field that is known must stand at most
once and hold a value of its kind, and two of them must be there.
-/

set_option autoImplicit false

namespace InstallLocator.Steam

structure Manifest where
  appId : Nat
  directory : String

inductive FieldKind
  | text
  | number (bits : Nat)
  | flag
  | textsByText
  | textsByNumber
  | numbersByNumber
  | depotsByNumber

structure Field where
  names : List String
  kind : FieldKind
  required : Bool

def Field.optional (name : String) (kind : FieldKind) : Field := ⟨[name], kind, false⟩

def numberFields : List String :=
  ["LastOwner", "Universe", "StateFlags", "UpdateResult", "SizeOnDisk", "buildid",
   "BytesToDownload", "BytesDownloaded", "BytesToStage", "BytesStaged", "StagingSize",
   "TargetBuildID", "AutoUpdateBehavior", "AllowOtherDownloadsWhileRunning"]

def manifestFields : List Field :=
  [⟨["appid"], .number 32, true⟩,
   ⟨["installdir"], .text, true⟩,
   .optional "name" .text,
   .optional "LauncherPath" .text,
   ⟨["LastUpdated", "lastupdated"], .number 64, false⟩,
   .optional "FullValidateBeforeNextUpdate" .flag,
   .optional "FullValidateAfterNextUpdate" .flag,
   .optional "InstalledDepots" .depotsByNumber,
   .optional "StagedDepots" .depotsByNumber,
   .optional "UserConfig" .textsByText,
   .optional "MountedConfig" .textsByText,
   .optional "InstallScripts" .textsByNumber,
   .optional "SharedDepots" .numbersByNumber,
   .optional "ScheduledAutoUpdate" (.number 63)] ++
  numberFields.map fun n => .optional n (.number 64)

def depotFields : List Field :=
  [⟨["manifest"], .number 64, true⟩,
   .optional "size" (.number 64),
   .optional "dlcappid" (.number 64)]

def numberOf? (bits : Nat) : KeyValue → Option Nat
  | .text s => parseNatural? (Nat.pow 2 bits) s.toList
  | .object _ => none

def isText : KeyValue → Bool
  | .text _ => true
  | .object _ => false

def isNumber (bits : Nat) (s : String) : Bool :=
  (numberOf? bits (.text s)).isSome

def Field.values (f : Field) (pairs : List (String × KeyValue)) : List KeyValue :=
  (pairs.filter fun p => f.names.contains p.1).map Prod.snd

def Field.accepts (holds : FieldKind → KeyValue → Bool) (pairs : List (String × KeyValue))
    (f : Field) : Bool :=
  match f.values pairs with
  | [] => !f.required
  | [v] => holds f.kind v
  | _ => false

/-- Every key stands once and is of the form asked for, and so is every value. -/
def entriesHold (key : String → Bool) (value : KeyValue → Bool) : KeyValue → Bool
  | .text _ => false
  | .object pairs =>
    pairs.all fun p => key p.1 && value p.2 && (KeyValue.valuesOf p.1 pairs).length == 1

def plainKindHolds : FieldKind → KeyValue → Bool
  | .number bits, v => (numberOf? bits v).isSome
  | .text, v => isText v
  | _, _ => false

def isDepot : KeyValue → Bool
  | .text _ => false
  | .object pairs => depotFields.all (Field.accepts plainKindHolds pairs)

def FieldKind.holds : FieldKind → KeyValue → Bool
  | .flag, .text s => s == "0" || s == "1"
  | .flag, .object _ => false
  | .textsByText, v => entriesHold (fun _ => true) isText v
  | .textsByNumber, v => entriesHold (isNumber 64) isText v
  | .numbersByNumber, v => entriesHold (isNumber 64) (plainKindHolds (.number 64)) v
  | .depotsByNumber, v => entriesHold (isNumber 64) isDepot v
  | kind, v => plainKindHolds kind v

def Manifest.ofValue? : KeyValue → Option Manifest
  | .text _ => none
  | .object pairs =>
    if manifestFields.all (Field.accepts FieldKind.holds pairs) then
      match KeyValue.valuesOf "appid" pairs, KeyValue.valuesOf "installdir" pairs with
      | [id], [.text directory] => (numberOf? 32 id).map fun n => ⟨n, directory⟩
      | _, _ => none
    else none

def Manifest.parse? (text : String) : Option Manifest :=
  (KeyValue.parse text).bind fun p => Manifest.ofValue? p.2

end InstallLocator.Steam
