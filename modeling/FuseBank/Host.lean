import FuseBank.Mapped.Window

/-!
What the command-line tool asks of the system that it runs on: files, and physical memory.
-/

namespace FuseBank

class Host (m : Type → Type) where
  fileExists : String → m Bool
  readFile : String → m (Except SystemError (List Byte))
  writeFile : String → List Byte → m (Except SystemError Unit)
  /-- The answers to mapping physical memory, the next time that it is mapped. -/
  mapping : m MappingAnswers
  memory : m Memory
  closeMemory : Memory → m Unit

end FuseBank
