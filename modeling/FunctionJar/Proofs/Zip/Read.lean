import FunctionJar.Proofs.Zip.Ending

namespace FunctionJar.Zip

open Text (Bytes)

variable {bytes : Bytes} {files : List Entry} {e : Entry} {start n : Nat}

end FunctionJar.Zip
