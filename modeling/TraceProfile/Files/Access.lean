import TraceProfile.Fault

/-!
# Access to files

The program needs three things of files: the bytes of one, text at the end of one, and text as
the content of one. What it puts into a log file is dated, so it also needs the time. Everything
that works with files is written for any monad that has all four.
-/

namespace TraceProfile

/-- A monad with files. -/
class FileAccess (m : Type → Type) where
  /-- The bytes of the file at a path; none if there is no file. -/
  read? : String → m (Option (List UInt8))
  /-- Text is put at the end of a file, which is made if it is not there. -/
  append : String → String → m (Except Failure Unit)
  /-- Text becomes the content of a file, which is made if it is not there. -/
  write : String → String → m (Except Failure Unit)
  /-- The time, as a date and a time of day with one space between them and none inside. -/
  stamp : m String

end TraceProfile
