import CvCuda.Version
import CvCuda.VersionIf
import CvCuda.Compat.Libc
import CvCuda.Compat.RoundEven
import CvCuda.Compat.RoundEvenIEEE
import CvCuda.Compat.GetEntropy
import CvCuda.Compat.CallInit
import CvCuda.Compat.GetRandom
import CvCuda.Compat.GetRandomCache
import CvCuda.Compat.GetRandomProgress
import CvCuda.Test.JointBilateralFilter
import CvCuda.Test.JointBilateralFilterCheck
import CvCuda.Python.Operators
