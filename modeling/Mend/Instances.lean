/-!
# Instances

Powers, sums and comparisons of bytes mean those of the core library everywhere, also in a module
that imports a library with instances of its own for them.
-/

namespace Mend

attribute [instance (high), default_instance high + 1] instPowNat

attribute [instance (high)] Zero.ofOfNat0 ByteArray.instDecidableEq

end Mend
