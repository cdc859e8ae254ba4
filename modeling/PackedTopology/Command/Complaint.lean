import PackedTopology.Fault

/-!
# Complaints to the user

A complaint is one text, and the text of what caused it if something did.  A
fault of a codec is told together with the operation that met it and a piece
of advice; a refusal of a device is told together with the operation and the
path.
-/

namespace PackedTopology

/-- A message to the user and the message that it is based on. -/
structure Complaint where
  text : String
  cause : Option String
  deriving DecidableEq, Repr

def Fault.advice (fault : Fault) : String :=
  match fault with
  | .undefinedWidth .. =>
      fault.message ++ ". The segment count must be at least 1."
  | .unsupportedWidth .. => fault.message ++ ". Use fewer segments."
  | .incomplete .. => fault.message ++ ". Verify the file is intact."
  | .idOutOfRange .. => fault.message ++ ". Raise --segments or fix the input."
  | .repeatedVertex .. => fault.message ++ ". Each vertex may be mapped once."
  | .countOverflow .. => fault.message ++ ". Split the input."
  | .limitExceeded .. =>
      fault.message ++
        ". Raise max_vertices in the config if the file is trusted."
  | .unsupportedShape .. =>
      fault.message ++ ". Only 2-D and 3-D grids are supported."
  | .backend .. => fault.message ++ "."
  | .device error => error.text
  | .settings reason => reason ++ ". Invalid configuration."

def DeviceError.advice (error : DeviceError) : String :=
  match error.cause with
  | .missing => "Check that the file exists and the path is correct."
  | .denied => "Check permissions or run as a different user."
  | .endedEarly => "File appears truncated or corrupted."
  | .noProgress => "Disk may be full. Free up space and try again."
  | .other => "Check permissions or free up disk space."

namespace Complaint

def plain (text : String) : Complaint :=
  ⟨text, none⟩

def ofFault (operation : String) (fault : Fault) : Complaint :=
  ⟨s!"{operation}: {fault.advice}", some fault.message⟩

def deviceText (operation path : String) (error : DeviceError) : String :=
  s!"Error {operation} '{path}': {error.text}. {error.advice}"

def ofDevice (operation path : String) (error : DeviceError) : Complaint :=
  ⟨deviceText operation path error, some error.text⟩

end Complaint

end PackedTopology
