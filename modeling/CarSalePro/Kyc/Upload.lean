import Mathlib.Data.List.Basic

namespace CarSalePro.Kyc

inductive KycDocumentKind where
  | idFront | idBack | selfie | gewerbeschein | insurance
  deriving DecidableEq, Repr

def KycDocumentKind.name : KycDocumentKind → String
  | idFront => "id_front"
  | idBack => "id_back"
  | selfie => "selfie"
  | gewerbeschein => "gewerbeschein"
  | insurance => "insurance"

/-- The kinds an application needs before it may be submitted. -/
def requiredKycKinds : List KycDocumentKind := [.idFront, .idBack, .selfie, .gewerbeschein]

inductive Err where
  | http (status : Nat) (code : String) (message : String)
  | recordNotFound
  | foreignKey
  | database
  | storage
  | processing
  deriving DecidableEq, Repr

/-- A part of a multipart request. -/
structure KycUploadPart where
  mimetype : Option String
  buffer : List UInt8
  deriving DecidableEq, Repr

inductive KycSniffedFormat where
  | pdf | jpeg | png | webp | gif | tiff
  deriving DecidableEq, Repr

def KycSniffedFormat.name : KycSniffedFormat → String
  | pdf => "pdf"
  | jpeg => "jpeg"
  | png => "png"
  | webp => "webp"
  | gif => "gif"
  | tiff => "tiff"

inductive KycFamily where
  | pdf | image
  deriving DecidableEq, Repr

def KycSniffedFormat.family : KycSniffedFormat → KycFamily
  | pdf => .pdf
  | _ => .image

/-- How one document is stored. -/
structure KycObjectPlan where
  family : KycFamily
  sniffed : KycSniffedFormat
  compress : Bool
  storedContentType : String
  extension : String
  deriving DecidableEq, Repr

def maxKycUploadBytes : Nat := 15 * 1024 * 1024

/-- The characters of a text, as bytes. -/
def ascii (text : String) : List UInt8 := text.toList.map fun c => c.toNat.toUInt8

def startsWith (buffer bytes : List UInt8) (offset : Nat) : Bool :=
  (buffer.drop offset).take bytes.length = bytes

/-- The container the leading bytes are of. -/
def sniffKycFormat (buffer : List UInt8) : Option KycSniffedFormat :=
  if buffer.length < 12 then none
  else if (buffer.take 1024).tails.any fun rest => startsWith rest (ascii "%PDF-") 0 then some .pdf
  else if startsWith buffer [0xff, 0xd8, 0xff] 0 then some .jpeg
  else if startsWith buffer [0x89, 0x50, 0x4e, 0x47, 0x0d, 0x0a, 0x1a, 0x0a] 0 then some .png
  else if startsWith buffer (ascii "RIFF") 0 && startsWith buffer (ascii "WEBP") 8 then some .webp
  else if startsWith buffer (ascii "GIF87a") 0 ||
    startsWith buffer (ascii "GIF89a") 0 then some .gif
  else if startsWith buffer [0x49, 0x49, 0x2a, 0x00] 0 then some .tiff
  else if startsWith buffer [0x4d, 0x4d, 0x00, 0x2a] 0 then some .tiff
  else none

/-- `\w`, and the three other characters of an image subtype. -/
def isSubtypeChar (c : Char) : Bool :=
  (c.isAlphanum && c.toNat < 128) || c = '_' || c = '.' || c = '+' || c = '-'

/-- `/^(image\/[\w.+-]+|application\/pdf)$/i`, of a text in lower case. -/
def allowedKycContentType (declared : String) : Bool :=
  declared = "application/pdf" ||
    ("image/".toList.isPrefixOf declared.toList &&
      !(declared.toList.drop 6).isEmpty && (declared.toList.drop 6).all isSubtypeChar)

/-- The declared type of a part, without its parameters. -/
def declaredType (part : KycUploadPart) : String :=
  let trimmed := (((part.mimetype.getD "").toList.dropWhile Char.isWhitespace).reverse.dropWhile
    Char.isWhitespace).reverse
  String.ofList ((trimmed.takeWhile (· ≠ ';')).map Char.toLower)

def declaredFamily (declared : String) : KycFamily :=
  if declared = "application/pdf" then .pdf else .image

/-- How a document is stored, or why it is not. -/
def resolveKycObject (part : KycUploadPart) : Except Err KycObjectPlan :=
  if part.buffer.isEmpty then
    .error (.http 400 "file_required" "Send the document in the `file` multipart field")
  else if maxKycUploadBytes < part.buffer.length then
    .error (.http 400 "file_too_large" ("A document may be at most " ++
      toString (maxKycUploadBytes / (1024 * 1024)) ++ " MB"))
  else if !allowedKycContentType (declaredType part) then
    .error (.http 400 "unsupported_content_type" ("Upload a JPEG, PNG, WebP, GIF, TIFF or PDF. " ++
      "The multipart part must declare its Content-Type."))
  else
    match sniffKycFormat part.buffer with
    | none =>
      .error (.http 400 "unsupported_content_type" ("The file is not a JPEG, PNG, WebP, GIF, " ++
        "TIFF or PDF (checked by reading the file itself, not its name or declared type)."))
    | some sniffed =>
      if declaredFamily (declaredType part) ≠ sniffed.family then
        .error (.http 400 "content_type_mismatch" ("The upload declares " ++ declaredType part ++
          " but its contents are " ++ sniffed.name ++ "."))
      else
        match sniffed.family with
        | .pdf => .ok ⟨.pdf, .pdf, false, "application/pdf", "pdf"⟩
        | .image => .ok ⟨.image, sniffed, true, "image/jpeg", "jpg"⟩

example : resolveKycObject ⟨some "Image/PNG; q=1",
    [0x89, 0x50, 0x4e, 0x47, 0x0d, 0x0a, 0x1a, 0x0a, 0, 0, 0, 0]⟩ =
    .ok ⟨.image, .png, true, "image/jpeg", "jpg"⟩ := by decide +kernel

end CarSalePro.Kyc
